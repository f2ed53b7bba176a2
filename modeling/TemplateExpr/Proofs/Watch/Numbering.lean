import TemplateExpr.Proofs.Action
import TemplateExpr.Proofs.Expr.Parts
import TemplateExpr.Watch.Build

/-!
# Watch trees built after others

A tree that is built after others has its slots behind theirs, and its context has the next number.
It is otherwise the tree that is built first.

* `Memos.append`        slots behind others;
* `Watch.moved`         a tree with its slots counted on and its context named anew;
* `Moves`               an action does behind other slots what it does by itself;
* `Watch.mapped`        a tree with its slots, names, filters and context replaced;
* `Watch.mapped_ofExpr`  building passes these on and looks at none of them;
* `Watch.moves_ofExpr`  building after others is building by itself, moved.
-/

namespace TemplateExpr

variable {W W' α β γ δ : Type}

/-! ## slots behind others -/

namespace Memos

def append (m m' : Memos) : Memos := ⟨m.slots ++ m'.slots⟩

theorem append_empty (m : Memos) : m.append {} = m := by
  show Memos.mk (m.slots ++ #[]) = m
  rw [Array.append_empty]

theorem size_append (m m' : Memos) :
    (m.append m').slots.size = m.slots.size + m'.slots.size := Array.size_append

end Memos

def Combinator.moved (k : Nat) : Combinator W → Combinator W
  | filter slot run => filter (k + slot) run
  | f => f

namespace Watch

mutual

/-- The tree with its slots counted on by `k` and its context named `id`. -/
def moved (k : Nat) (id : String) : Watch W → Watch W
  | context => context
  | constant v name => constant v (name.map fun _ => id)
  | field base name => field (moved k id base) name
  | method base name args => method (moved k id base) name (movedAll k id args)
  | compute label f args => compute label (f.moved k) (movedAll k id args)
  | collection inner => collection (moved k id inner)

def movedAll (k : Nat) (id : String) : List (Watch W) → List (Watch W)
  | [] => []
  | w :: rest => moved k id w :: movedAll k id rest

end

end Watch

/-! ## building behind others -/

/-- Behind the slots of `before`, the second action does what the first does by itself, and its
result is that of the first under `f`. -/
def Moves (before : Memos) (f : α → β) (x : Watch.Build α) (y : Watch.Build β) : Prop :=
  ∀ m, y (before.append m) =
    match x m with
    | .ok a m' => .ok (f a) (before.append m')
    | .error e m' => .error e (before.append m')

namespace Moves

variable {before : Memos}

theorem pure {f : α → β} {a : α} {b : β} (h : f a = b) :
    Moves before f (Pure.pure a) (Pure.pure b) := by
  intro m
  rw [← h]
  rfl

theorem refuse {f : α → β} (e : WatchError) :
    Moves before f (Watch.refuse e) (Watch.refuse e) := fun _ => rfl

theorem bind {f : α → β} {g : γ → δ} {x : Watch.Build α} {y : Watch.Build β}
    {k : α → Watch.Build γ} {l : β → Watch.Build δ} (hx : Moves before f x y)
    (hk : ∀ a, Moves before g (k a) (l (f a))) : Moves before g (x >>= k) (y >>= l) := by
  intro m
  rw [bind_apply, bind_apply, hx m]
  cases x m with
  | ok a m' => exact hk a m'
  | error e m' => rfl

theorem map {f : α → β} {p : α → γ} {q : β → δ} {g : γ → δ} {x : Watch.Build α}
    {y : Watch.Build β} (hx : Moves before f x y) (h : ∀ a, g (p a) = q (f a)) :
    Moves before g (p <$> x) (q <$> y) := by
  rw [← bind_pure_comp, ← bind_pure_comp]
  exact hx.bind fun a => .pure (h a)

theorem newSlot (arity : Nat) :
    Moves before (before.slots.size + ·) (Watch.newSlot arity) (Watch.newSlot arity) := by
  intro m
  show EStateM.Result.ok (before.append m).slots.size _ = EStateM.Result.ok _ _
  rw [Memos.size_append]
  congr 1
  show Memos.mk ((before.slots ++ m.slots).push _) = Memos.mk (before.slots ++ m.slots.push _)
  rw [Array.push_append]

end Moves

/-! ## trees with other leaves -/

/-- Filters that are passed on as they are. -/
theorem FilterLookup.map_run (filters : FilterLookup W) :
    (fun name => (filters name).map fun run => run) = filters := by
  funext name
  exact Option.map_id'

def Combinator.mapped (k : Nat) (g : Filter W → Filter W') : Combinator W → Combinator W'
  | binary op => binary op
  | not => not
  | select => select
  | keyed => keyed
  | array => array
  | object keys => object keys
  | filter slot run => filter (k + slot) (g run)

namespace Watch

mutual

/-- The tree with its slots counted on by `k`, its contexts renamed, other filters, and `root` where
the context was. -/
def mapped (k : Nat) (rename : String → String) (g : Filter W → Filter W') (root : Watch W') :
    Watch W → Watch W'
  | context => root
  | constant v id => constant v (id.map rename)
  | field base name => field (mapped k rename g root base) name
  | method base name args =>
    method (mapped k rename g root base) name (mappedAll k rename g root args)
  | compute label f args => compute label (f.mapped k g) (mappedAll k rename g root args)
  | collection inner => collection (mapped k rename g root inner)

def mappedAll (k : Nat) (rename : String → String) (g : Filter W → Filter W') (root : Watch W') :
    List (Watch W) → List (Watch W')
  | [] => []
  | w :: rest => mapped k rename g root w :: mappedAll k rename g root rest

end

section
variable (k : Nat) (rename : String → String) (g : Filter W → Filter W') (root : Watch W')

theorem mappedAll_eq_map (ws : List (Watch W)) :
    mappedAll k rename g root ws = ws.map (mapped k rename g root) := by
  induction ws with
  | nil => rfl
  | cons w ws ih => rw [mappedAll, ih, List.map_cons]

theorem mappedAll_collections (ws : List (Watch W)) :
    mappedAll k rename g root (ws.map .collection) =
      (mappedAll k rename g root ws).map .collection := by
  rw [mappedAll_eq_map, mappedAll_eq_map, List.map_map, List.map_map]
  congr 1

theorem length_mappedAll (ws : List (Watch W)) :
    (mappedAll k rename g root ws).length = ws.length := by
  rw [mappedAll_eq_map, List.length_map]

end

theorem moved_eq_mapped (k : Nat) (id' : String) :
    ∀ w : Watch W, moved k id' w = mapped k (fun _ => id') id .context w := by
  have hcombinator : ∀ f : Combinator W, f.moved k = f.mapped k id := by
    intro f
    cases f <;> rfl
  refine @Watch.rec W (fun w => moved k id' w = mapped k (fun _ => id') id .context w)
    (fun ws => movedAll k id' ws = mappedAll k (fun _ => id') id .context ws)
    rfl (fun _ _ => rfl) ?_ ?_ ?_ ?_ rfl ?_
  · intro base name ih
    rw [moved, mapped, ih]
  · intro base name args ih ihargs
    rw [moved, mapped, ih, ihargs]
  · intro label f args ihargs
    rw [moved, mapped, hcombinator, ihargs]
  · intro inner ih
    rw [moved, mapped, ih]
  · intro w ws ihw ihws
    rw [movedAll, mappedAll, ihw, ihws]

/-! ## building -/

section
variable {before : Memos} {rename : String → String} {g : Filter W → Filter W'}
  {above : Watch W'} {h h' : Heap} {filters : FilterLookup W} {root : Watch W}

/-- The expression is built behind other slots, with other leaves, as it is built by itself. -/
def MapsWhole (before : Memos) (rename : String → String) (g : Filter W → Filter W')
    (above : Watch W') (h h' : Heap) (filters : FilterLookup W) (root : Watch W) (e : Expr) :
    Prop :=
  Moves before (mapped before.slots.size rename g above) (ofExpr h filters root e)
    (ofExpr h' (fun name => (filters name).map g)
      (mapped before.slots.size rename g above root) e)

def MapsAll (before : Memos) (rename : String → String) (g : Filter W → Filter W')
    (above : Watch W') (h h' : Heap) (filters : FilterLookup W) (root : Watch W)
    (es : List Expr) : Prop :=
  Moves before (mappedAll before.slots.size rename g above) (ofExprs h filters root es)
    (ofExprs h' (fun name => (filters name).map g)
      (mapped before.slots.size rename g above root) es)

theorem mapsAll {es : List Expr}
    (ih : ∀ e ∈ es, MapsWhole before rename g above h h' filters root e) :
    MapsAll before rename g above h h' filters root es := by
  unfold MapsAll
  induction es with
  | nil =>
    rw [ofExprs, ofExprs]
    exact .pure rfl
  | cons e es ihes =>
    rw [ofExprs, ofExprs]
    refine .bind (ih e (by simp)) fun w => ?_
    refine .bind (ihes fun e he => ih e (List.mem_cons_of_mem _ he)) fun ws => ?_
    exact .pure rfl

/-- A pure node that is no filter. -/
theorem maps_compute {e : Expr} {es : List Expr} (f : Combinator W) (f' : Combinator W')
    (hf : ∀ k, f.mapped k g = f') (hlabel : e.render h' = e.render h)
    (he : ∀ h filters root, ofExpr (W := W) h filters root e =
      .compute (e.render h) f <$> ofExprs h filters root es)
    (he' : ∀ h filters root, ofExpr (W := W') h filters root e =
      .compute (e.render h) f' <$> ofExprs h filters root es)
    (hes : MapsAll before rename g above h h' filters root es) :
    MapsWhole before rename g above h h' filters root e := by
  unfold MapsWhole
  rw [he, he']
  refine .map hes fun ws => ?_
  rw [mapped, hf, hlabel]

theorem maps_filter {input : Expr} {name : String} {args : List Expr} {run : Filter W}
    (hrun : filters name = some run)
    (hlabel : (Expr.filter input name args).render h' = (Expr.filter input name args).render h)
    (hinput : MapsWhole before rename g above h h' filters root input)
    (hargs : MapsAll before rename g above h h' filters root args) :
    MapsWhole before rename g above h h' filters root (.filter input name args) := by
  unfold MapsWhole
  rw [ofExpr, ofExpr]
  simp only [hrun, Option.map_some]
  refine .bind hinput fun first => .bind hargs fun rest => ?_
  have hlength : ((mapped before.slots.size rename g above first ::
      mappedAll before.slots.size rename g above rest).map Watch.collection).length =
        ((first :: rest).map Watch.collection).length := by
    rw [List.length_map, List.length_map, List.length_cons, List.length_cons, length_mappedAll]
  rw [hlength, hlabel]
  refine .bind (.newSlot _) fun slot => .pure ?_
  rw [mapped, mappedAll_collections, mappedAll]
  rfl

/-- **Building passes on slots, filters and the root of the scope,** and depends on the heap only by
the texts of the nodes. -/
theorem mapped_ofExpr (before : Memos) (rename : String → String) (g : Filter W → Filter W')
    (above : Watch W') (filters : FilterLookup W) (root : Watch W) {h h' : Heap} (e : Expr)
    (hlabels : ∀ d, Expr.Within d e → d.render h' = d.render h) :
    MapsWhole before rename g above h h' filters root e := by
  induction e using Expr.parts_induction with
  | step e ih =>
    have hlabel := hlabels e (.self e)
    have ih : ∀ p ∈ e.parts, MapsWhole before rename g above h h' filters root p :=
      fun p hp => ih p hp fun d hd => hlabels d (.part hp hd)
    have ihall : ∀ es, (∀ e' ∈ es, e' ∈ e.parts) →
        MapsAll before rename g above h h' filters root es :=
      fun es hes => mapsAll fun e' he' => ih e' (hes e' he')
    cases e with
    | scope name =>
      unfold MapsWhole
      rw [ofExpr, ofExpr]
      exact .pure rfl
    | literal v =>
      unfold MapsWhole
      rw [ofExpr, ofExpr]
      exact .pure rfl
    | str s =>
      unfold MapsWhole
      rw [ofExpr, ofExpr]
      exact .pure rfl
    | member receiver name =>
      unfold MapsWhole
      rw [ofExpr, ofExpr]
      exact .bind (ih receiver (by simp [Expr.parts])) fun base => .pure rfl
    | callScope name args =>
      unfold MapsWhole
      rw [ofExpr, ofExpr]
      exact .bind (ihall args (by simp [Expr.parts])) fun ws => .pure rfl
    | callMember receiver name args =>
      unfold MapsWhole
      rw [ofExpr, ofExpr]
      refine .bind (ih receiver (by simp [Expr.parts])) fun base => ?_
      exact .bind (ihall args (by simp +contextual [Expr.parts])) fun ws => .pure rfl
    | binary op left right =>
      exact maps_compute (.binary op) (.binary op) (fun _ => rfl) hlabel
        (fun h filters root => by simp [ofExpr, ofExprs])
        (fun h filters root => by simp [ofExpr, ofExprs])
        (ihall [left, right] (by simp [Expr.parts]))
    | not operand =>
      exact maps_compute .not .not (fun _ => rfl) hlabel
        (fun h filters root => by simp [ofExpr, ofExprs])
        (fun h filters root => by simp [ofExpr, ofExprs]) (ihall [operand] (by simp [Expr.parts]))
    | conditional condition yes no =>
      exact maps_compute .select .select (fun _ => rfl) hlabel
        (fun h filters root => by simp [ofExpr, ofExprs])
        (fun h filters root => by simp [ofExpr, ofExprs])
        (ihall [condition, yes, no] (by simp [Expr.parts]))
    | keyed receiver key =>
      exact maps_compute .keyed .keyed (fun _ => rfl) hlabel
        (fun h filters root => by simp [ofExpr, ofExprs])
        (fun h filters root => by simp [ofExpr, ofExprs])
        (ihall [receiver, key] (by simp [Expr.parts]))
    | array elements =>
      exact maps_compute .array .array (fun _ => rfl) hlabel
        (fun h filters root => by simp [ofExpr]) (fun h filters root => by simp [ofExpr])
        (ihall elements (by simp [Expr.parts]))
    | object keys values =>
      exact maps_compute (.object keys) (.object keys) (fun _ => rfl) hlabel
        (fun h filters root => by simp [ofExpr]) (fun h filters root => by simp [ofExpr])
        (ihall values (by simp [Expr.parts]))
    | filter input name args =>
      cases hrun : filters name with
      | some run =>
        exact maps_filter hrun hlabel (ih input (by simp [Expr.parts]))
          (ihall args (by simp +contextual [Expr.parts]))
      | none =>
        unfold MapsWhole
        rw [ofExpr, ofExpr]
        simp only [hrun, Option.map_none]
        exact .refuse _
    | callFunction | assign | chain =>
      unfold MapsWhole
      rw [ofExpr, ofExpr]
      exact .refuse _

end

/-- The expression is built behind other slots as it is built by itself. -/
def MovesWhole (before : Memos) (id : String) (h : Heap) (filters : FilterLookup W)
    (root : Watch W) (e : Expr) : Prop :=
  Moves before (moved before.slots.size id) (ofExpr h filters root e)
    (ofExpr h filters (root.moved before.slots.size id) e)

/-- **Building behind other slots is building by itself, with the tree moved behind them.** -/
theorem moves_ofExpr (before : Memos) (id : String) (h : Heap) (filters : FilterLookup W)
    (root : Watch W) (e : Expr) : MovesWhole before id h filters root e := by
  have hmaps := mapped_ofExpr before (fun _ => id) (fun run => run) .context filters root e
    fun d _ => (rfl : d.render h = d.render h)
  have hmoved : mapped before.slots.size (fun _ => id) (fun run : Filter W => run) .context =
      moved before.slots.size id := by
    funext w
    exact (moved_eq_mapped before.slots.size id w).symm
  unfold MapsWhole at hmaps
  rw [filters.map_run, hmoved] at hmaps
  exact hmaps

end Watch

end TemplateExpr
