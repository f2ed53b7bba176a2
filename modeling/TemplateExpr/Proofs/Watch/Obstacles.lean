import TemplateExpr.Proofs.Expr.Nodes
import TemplateExpr.Proofs.Watch.History

/-!
# What has no watch tree

A text has a watch tree unless a node of its tree is in the way: a call of a function value, an
assignment, a chain, or a filter that is not known. The first of these is what the builder reports.

* `Expr.obstacle?`           what is wrong with a node;
* `Watch.ends_ofExpr`        building ends with the first obstacle;
* `Expr.render_of_literals`  the text of a tree whose literals are those of texts;
* `WatchBuilder.build_mapped`   what is built from a text, whatever the heap, the filters and the
                             context are;
* `WatchBuilder.build_first_obstacle`   which texts have a watch tree, and what is wrong with others.
-/

namespace TemplateExpr

variable {W W' α β ε σ : Type}

/-! ## obstacles in their order -/

namespace Expr

/-- What is wrong with a node that has no watch tree. -/
def obstacle? (filters : FilterLookup W) : Expr → Option WatchError
  | callFunction callee args => some (.unsupported (callFunction callee args).kind)
  | assign target value => some (.unsupported (assign target value).kind)
  | chain statements => some (.unsupported (chain statements).kind)
  | filter _ name _ => if (filters name).isSome then none else some (.unknownFilter name)
  | _ => none

/-- A node that can be watched, if its parts can. -/
def Watchable (filters : FilterLookup W) : Expr → Prop
  | callFunction .. | assign .. | chain _ => False
  | filter _ name _ => ∃ run, filters name = some run
  | _ => True

theorem obstacle?_eq_none_iff {filters : FilterLookup W} {e : Expr} :
    e.obstacle? filters = none ↔ e.Watchable filters := by
  cases e with
  | callFunction | assign | chain => simp [obstacle?, Watchable]
  | filter input name args => cases hrun : filters name <;> simp [obstacle?, Watchable, hrun]
  | _ => simp [obstacle?, Watchable]

/-- The first obstacle among the nodes of some trees. -/
def firstObstacle? (filters : FilterLookup W) (es : List Expr) : Option WatchError :=
  (es.flatMap preorder).findSome? (obstacle? filters)

theorem firstObstacle?_cons (filters : FilterLookup W) (e : Expr) (es : List Expr) :
    firstObstacle? filters (e :: es) =
      (firstObstacle? filters [e]).or (firstObstacle? filters es) := by
  rw [firstObstacle?, firstObstacle?, List.flatMap_cons, List.flatMap_singleton,
    List.findSome?_append]
  rfl

/-- A node comes before its parts. -/
theorem firstObstacle?_singleton (filters : FilterLookup W) (e : Expr) :
    firstObstacle? filters [e] = (e.obstacle? filters).or (firstObstacle? filters e.parts) := by
  rw [firstObstacle?, List.flatMap_singleton, preorder_eq, List.findSome?_cons]
  cases e.obstacle? filters <;> rfl

end Expr

/-! ## how building ends -/

/-- The error of an action, if it fails. -/
def fault? : EStateM.Result ε σ α → Option ε
  | .ok .. => none
  | .error e _ => some e

theorem fault?_eq_none_iff {r : EStateM.Result ε σ α} :
    fault? r = none ↔ ∃ a, answer r = .ok a := by
  cases r <;> simp [fault?, answer]

theorem fault?_eq_some_iff {r : EStateM.Result ε σ α} {e : ε} :
    fault? r = some e ↔ answer r = .error e := by
  cases r <;> simp [fault?, answer]

/-- The action ends with this error, or without one, whatever the state is. -/
def Ends (x : EStateM ε σ α) (o : Option ε) : Prop := ∀ s, fault? (x s) = o

namespace Ends

theorem pure (a : α) : Ends (Pure.pure a : EStateM ε σ α) none := fun _ => rfl

theorem bind {x : EStateM ε σ α} {k : α → EStateM ε σ β} {o o' : Option ε} (hx : Ends x o)
    (hk : ∀ a, Ends (k a) o') : Ends (x >>= k) (o.or o') := by
  intro s
  rw [bind_apply, ← hx s]
  cases x s with
  | ok a s' => exact hk a s'
  | error e s' => rfl

/-- What comes after an action and does not fail. -/
theorem bind_none {x : EStateM ε σ α} {k : α → EStateM ε σ β} {o : Option ε} (hx : Ends x o)
    (hk : ∀ a, Ends (k a) none) : Ends (x >>= k) o := by
  have hboth := hx.bind hk
  rwa [Option.or_none] at hboth

theorem map (f : α → β) {x : EStateM ε σ α} {o : Option ε} (hx : Ends x o) : Ends (f <$> x) o := by
  rw [← bind_pure_comp]
  exact hx.bind_none fun a => .pure (f a)

end Ends

namespace Watch

variable {h : Heap} {filters : FilterLookup W} {root : Watch W}

theorem ends_ofExprs {es : List Expr}
    (ih : ∀ e ∈ es, Ends (ofExpr h filters root e) (Expr.firstObstacle? filters [e])) :
    Ends (ofExprs h filters root es) (Expr.firstObstacle? filters es) := by
  induction es with
  | nil =>
    rw [ofExprs]
    exact .pure []
  | cons e es ihes =>
    have hrest := ihes fun e' he' => ih e' (List.mem_cons_of_mem e he')
    rw [ofExprs, Expr.firstObstacle?_cons]
    refine .bind (ih e List.mem_cons_self) fun w => ?_
    exact hrest.bind_none fun ws => .pure _

/-- **Building an expression ends with the first obstacle among its nodes.** -/
theorem ends_ofExpr (h : Heap) (filters : FilterLookup W) (root : Watch W) (e : Expr) :
    Ends (ofExpr h filters root e) (Expr.firstObstacle? filters [e]) := by
  induction e using Expr.parts_induction with
  | step e ih =>
    have ihall : ∀ es, (∀ e' ∈ es, e' ∈ e.parts) →
        Ends (ofExprs h filters root es) (Expr.firstObstacle? filters es) :=
      fun es hes => ends_ofExprs fun e' he' => ih e' (hes e' he')
    -- A pure node is built from its parts, in their order.
    have hcompute : ∀ f : Combinator W, ofExpr h filters root e =
        .compute (e.render h) f <$> ofExprs h filters root e.parts →
        Ends (ofExpr h filters root e) (Expr.firstObstacle? filters e.parts) := by
      intro f he
      rw [he]
      exact (ihall e.parts fun _ he' => he').map _
    rw [Expr.firstObstacle?_singleton]
    cases e with
    | scope | literal | str =>
      rw [ofExpr]
      exact .pure _
    | member receiver name =>
      rw [ofExpr]
      exact (ih receiver (by simp [Expr.parts])).bind_none fun base => .pure _
    | callScope name args =>
      rw [ofExpr]
      exact (ihall args (by simp [Expr.parts])).bind_none fun ws => .pure _
    | callMember receiver name args =>
      show Ends _ (Expr.firstObstacle? filters (receiver :: args))
      rw [ofExpr, Expr.firstObstacle?_cons]
      refine .bind (ih receiver (by simp [Expr.parts])) fun base => ?_
      exact (ihall args (by simp +contextual [Expr.parts])).bind_none fun ws => .pure _
    | binary op left right => exact hcompute (.binary op) (by simp [ofExpr, ofExprs, Expr.parts])
    | not operand => exact hcompute .not (by simp [ofExpr, ofExprs, Expr.parts])
    | conditional condition yes no => exact hcompute .select (by simp [ofExpr, ofExprs, Expr.parts])
    | keyed receiver key => exact hcompute .keyed (by simp [ofExpr, ofExprs, Expr.parts])
    | array elements => exact hcompute .array (by simp [ofExpr, Expr.parts])
    | object keys values => exact hcompute (.object keys) (by simp [ofExpr, Expr.parts])
    | filter input name args =>
      rw [ofExpr, Expr.obstacle?]
      cases hrun : filters name with
      | none => exact fun _ => rfl
      | some run =>
        rw [Option.isSome_some, if_pos rfl, Option.none_or, Expr.parts, Expr.firstObstacle?_cons]
        refine .bind (ih input (by simp [Expr.parts])) fun first => ?_
        refine (ihall args (by simp +contextual [Expr.parts])).bind_none fun rest => ?_
        exact Ends.bind_none (fun _ => rfl) fun slot => .pure _
    | callFunction | assign | chain =>
      rw [ofExpr]
      exact fun _ => rfl

end Watch

/-! ## texts of nodes -/

theorem literalText_of_isLiteral (h h' : Heap) {v : Value} (hv : v.IsLiteral) :
    literalText h' v = literalText h v := by
  cases hv with
  | null | bool => rfl
  | @number n hn => cases n <;> rfl

namespace Expr

variable {h h' : Heap}

/-- A tree whose literals are those of texts is written without looking at the heap. -/
theorem render_of_literals {e : Expr} (he : ∀ v, Within (literal v) e → v.IsLiteral) :
    e.render h' = e.render h :=
  render_congr fun v hv => literalText_of_isLiteral h h' (he v hv)

/-- The nodes of the tree of a text are written without looking at the heap. -/
theorem render_of_parse {source : String} {e d : Expr} (parsed : Expr.parse source = .ok e)
    (hd : Within d e) : d.render h' = d.render h := by
  refine render_of_literals fun v hv => ?_
  have hformed := FormedProgram.within hv (FormedProgram.within hd (formed_of_parse parsed))
  cases hformed with
  | statement hstatement =>
    cases hstatement with
    | plain hplain =>
      cases hplain with
      | literal hliteral => exact hliteral

end Expr

/-! ## building -/

namespace WatchBuilder

/-- **What is built from a text is fixed by its filters' names.** Heaps, other filters of these
names and contexts are passed on; slots are behind those of other trees. -/
theorem build_mapped {b : WatchBuilder} (sound : b.cache.Sound) (h h' : Heap)
    (filters : FilterLookup W) (g : Filter W → Filter W') (source : String) (asCollection : Bool)
    (context : Option Value) :
    answer (build h' (fun name => (filters name).map g) source asCollection context b) =
        (answer (build h filters source asCollection none {})).map
          (Watch.mapped b.memos.slots.size id g (rootAt context b.contexts)) ∧
      (stateAfter (build h' (fun name => (filters name).map g) source asCollection context
          b)).memos =
        b.memos.append (stateAfter (build h filters source asCollection none {})).memos := by
  refine build_of_moves sound (fun w => by rw [Watch.mapped]) source (fun e parsed => ?_)
    asCollection
  exact Watch.mapped_ofExpr b.memos id g (rootAt context b.contexts) filters (rootAt none 0) e
    fun d hd => Expr.render_of_parse parsed hd

/-- Building from a text ends with the first obstacle of its tree. -/
theorem fault?_build {b : WatchBuilder} (sound : b.cache.Sound) {source : String} {e : Expr}
    (parsed : Expr.parse source = .ok e) (h : Heap) (filters : FilterLookup W)
    (asCollection : Bool) (context : Option Value) :
    fault? (build h filters source asCollection context b) =
      e.preorder.findSome? (Expr.obstacle? filters) := by
  have hanswer := ParseCache.answer_parse sound source
  rw [parsed] at hanswer
  rw [build_eq]
  cases hb : ParseCache.parse source b.cache with
  | error err cache =>
    rw [hb] at hanswer
    cases hanswer
  | ok found cache =>
    rw [hb] at hanswer
    obtain rfl : found.tree = e := Except.ok.inj hanswer
    have hends := Watch.ends_ofExpr h filters (rootAt context b.contexts) found.tree b.memos
    rw [Expr.firstObstacle?, List.flatMap_singleton] at hends
    rw [← hends]
    dsimp only
    cases Watch.ofExpr h filters (rootAt context b.contexts) found.tree b.memos <;> rfl

/-- **A text has a watch tree exactly if each node of its tree can be watched, and else the first
node that cannot is reported.** Nothing is called or read on the way: the heap may be any, and the
filters and the context are passed on as they are. -/
theorem build_first_obstacle {b : WatchBuilder} (sound : b.cache.Sound) {source : String} {e : Expr}
    (parsed : Expr.parse source = .ok e) (h : Heap) (filters : FilterLookup W)
    (asCollection : Bool) (context : Option Value) :
    ((∃ tree, answer (build h filters source asCollection context b) = .ok tree) ↔
        ∀ d, Expr.Within d e → d.Watchable filters) ∧
      (∀ err, answer (build h filters source asCollection context b) = .error err ↔
        e.preorder.findSome? (Expr.obstacle? filters) = some err) ∧
      ∀ {W' : Type} (g : Filter W → Filter W') (h' : Heap),
        answer (build h' (fun name => (filters name).map g) source asCollection context b) =
          (answer (build h filters source asCollection none {})).map
            (Watch.mapped b.memos.slots.size id g (rootAt context b.contexts)) := by
  have hfault := fault?_build sound parsed h filters asCollection context
  refine ⟨?_, fun err => ?_, fun g h' =>
    (build_mapped sound h h' filters g source asCollection context).1⟩
  · rw [← fault?_eq_none_iff, hfault, List.findSome?_eq_none_iff]
    constructor
    · intro hnone d hd
      exact Expr.obstacle?_eq_none_iff.mp (hnone d (Expr.mem_preorder_iff.mpr hd))
    · intro hwatchable d hd
      exact Expr.obstacle?_eq_none_iff.mpr (hwatchable d (Expr.mem_preorder_iff.mp hd))
  · rw [← fault?_eq_some_iff, hfault]

/-- A filter over a call whose argument is an assignment, with a call of a function value in its own
argument. The filter comes first, then the assignment. -/
theorem build_first_obstacle_assignment :
    ∃ e, Expr.parse "a(x = 1) | f : g()()" = .ok e ∧
      e.preorder.map Expr.kind = ["Filter", "CallScope", "Assign", "AccessScope",
        "LiteralPrimitive", "CallFunction", "CallScope"] ∧
      answer (build .empty (fun _ => (none : Option (Filter Unit))) "a(x = 1) | f : g()()" false
        none {}) = .error (.unknownFilter "f") ∧
      answer (build .empty (fun _ => some fun _ => (pure .null : Action Unit Value))
        "a(x = 1) | f : g()()" false none {}) = .error (.unsupported "Assign") := by
  have parsed : Expr.parse "a(x = 1) | f : g()()" =
      .ok (.filter (.callScope "a" [.assign (.scope "x") (.literal (.int 1))]) "f"
        [.callFunction (.callScope "g" []) []]) := by cbv
  refine ⟨_, parsed, by simp [Expr.preorder_eq, Expr.parts, Expr.kind], ?_, ?_⟩
  · refine ((build_first_obstacle ParseCache.sound_empty parsed .empty _ false none).2.1 _).mpr ?_
    rw [Expr.preorder_eq]
    rfl
  · refine ((build_first_obstacle ParseCache.sound_empty parsed .empty _ false none).2.1 _).mpr ?_
    simp only [Expr.preorder_eq, Expr.parts, List.flatMap_cons]
    rfl

end WatchBuilder

end TemplateExpr
