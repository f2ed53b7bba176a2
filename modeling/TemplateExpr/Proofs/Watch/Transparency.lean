import TemplateExpr.Proofs.Watch.Agreement
import TemplateExpr.Proofs.Watch.Memory

/-!
# Watch trees that were used before

A tree is read again and again, and its filters remember. What they remember makes a difference
only where a zero takes the place of the other one.

* `Watch.bare`            a tree without its labels and slots;
* `Watch.read_bare`       without memory, these make no difference;
* `Watch.exists_builds`   two trees of one expression differ in nothing else, and each filter has a
                          fresh slot of its own;
* `Watch.Used`            the memory of a tree after any readings;
* `WatchBuilder.read_used`   reading a used tree.
-/

namespace TemplateExpr

variable {W : Type}

/-! ## trees without labels and slots -/

def Combinator.bare : Combinator W → Combinator W
  | filter _ run => filter 0 run
  | f => f

theorem Combinator.apply_bare (env : Embedding W) (f : Combinator W) (args : List Observed) :
    Unremembering (f.bare.apply env args) (f.apply env args) := by
  by_cases hf : ∃ slot run, f = filter slot run
  · obtain ⟨slot, run, rfl⟩ := hf
    rw [bare, apply, apply]
    exact .bind (.remembered 0 slot _) fun values _ _ _ => .lift (run values)
  · have hne : ∀ slot run, f ≠ filter slot run := fun slot run h => hf ⟨slot, run, h⟩
    have hbare : f.bare = f := by
      cases f with
      | filter slot run => exact absurd rfl (hne slot run)
      | _ => rfl
    obtain ⟨y, hy⟩ := exists_lift hne env args
    rw [hbare, hy]
    exact .lift y

namespace Watch

mutual

/-- The tree without its labels, its slots and the name of its context. -/
def bare : Watch W → Watch W
  | context => context
  | constant v _ => constant v none
  | field base name => field (bare base) name
  | method base name args => method (bare base) name (bareAll args)
  | compute _ f args => compute "" f.bare (bareAll args)
  | collection inner => collection (bare inner)

def bareAll : List (Watch W) → List (Watch W)
  | [] => []
  | w :: rest => bare w :: bareAll rest

end

theorem readAll_bare {env : Embedding W} {ambient : Value} {ws : List (Watch W)}
    (ih : ∀ w ∈ ws, Unremembering (w.bare.read env ambient) (w.read env ambient)) :
    Unremembering (readAll env ambient (bareAll ws)) (readAll env ambient ws) := by
  induction ws with
  | nil =>
    rw [bareAll, readAll]
    exact .pure []
  | cons w ws ihws =>
    rw [bareAll, readAll, readAll]
    simp only [bind_pure_comp]
    refine .bind (ih w (by simp)) fun o _ _ _ => ?_
    exact .map _ (ihws fun w hw => ih w (List.mem_cons_of_mem _ hw))

/-- **Without memory, labels and slots make no difference.** -/
theorem read_bare (env : Embedding W) (ambient : Value) (w : Watch W) :
    Unremembering (w.bare.read env ambient) (w.read env ambient) := by
  induction w using Watch.induction with
  | context =>
    rw [bare, read]
    exact .pure _
  | constant v id =>
    rw [bare, read, read]
    exact .pure _
  | field base name ih =>
    rw [bare, read, read]
    refine .bind ih fun o _ _ _ => ?_
    rw [bind_pure_comp]
    exact .map _ (.lift _)
  | method base name args ih ihargs =>
    rw [bare, read, read]
    refine .bind ih fun o _ _ _ => ?_
    by_cases hnull : o.get.isNull = true
    · simp only [hnull, if_true]
      exact .pure _
    · simp only [hnull, Bool.false_eq_true, if_false]
      refine .bind (readAll_bare ihargs) fun os _ _ _ => ?_
      refine .bind (.lift _) fun v _ _ _ => ?_
      cases v with
      | some v => exact .pure _
      | none => exact .lift _
  | compute label f args ih =>
    rw [bare, read, read]
    simp only [bind_pure_comp]
    exact .bind (readAll_bare ih) fun os _ _ _ => .map _ (f.apply_bare env os)
  | collection inner ih =>
    rw [bare, read_collection, read_collection]
    exact .map _ ih

end Watch

/-! ## slots that were made -/

/-- The slots were made one after the other for a tree, each with its nulls. -/
structure Made (m m' : Memos) (slots : List (Nat × Nat)) : Prop where
  grows : m.Extends m'
  nulls : ∀ p ∈ slots, m.slots.size ≤ p.1 ∧ m'.slots[p.1]? = some (List.replicate p.2 .null)
  nodup : (slots.map Prod.fst).Nodup

namespace Made

theorem nil (m : Memos) : Made m m [] := ⟨.refl m, by simp, by simp⟩

theorem new (m : Memos) (arity : Nat) : Made m (m.new arity).2 [(m.slots.size, arity)] := by
  refine ⟨m.extends_new arity, List.forall_mem_singleton.mpr ⟨Nat.le_refl _, ?_⟩, by simp⟩
  simp [Memos.new]

theorem lt_size {m m' : Memos} {slots : List (Nat × Nat)} (h : Made m m' slots) :
    ∀ p ∈ slots, p.1 < m'.slots.size := by
  intro p hp
  obtain ⟨hlt, _⟩ := Array.getElem?_eq_some_iff.mp (h.nulls p hp).2
  exact hlt

theorem append {m₁ m₂ m₃ : Memos} {slots slots' : List (Nat × Nat)} (h : Made m₁ m₂ slots)
    (h' : Made m₂ m₃ slots') : Made m₁ m₃ (slots ++ slots') where
  grows := h.grows.trans h'.grows
  nulls := by
    refine List.forall_mem_append.mpr ⟨fun p hp => ?_, fun p hp => ?_⟩
    · rw [h'.grows.slots_eq p.1 (h.lt_size p hp)]
      exact h.nulls p hp
    · exact ⟨Nat.le_trans h.grows.size_le (h'.nulls p hp).1, (h'.nulls p hp).2⟩
  nodup := by
    rw [List.map_append]
    refine List.nodup_append.mpr ⟨h.nodup, h'.nodup, fun i hi j hj => ?_⟩
    obtain ⟨p, hp, rfl⟩ := List.mem_map.mp hi
    obtain ⟨q, hq, rfl⟩ := List.mem_map.mp hj
    have hlow := h.lt_size p hp
    have hhigh := (h'.nulls q hq).1
    omega

theorem fresh {m m' : Memos} {slots : List (Nat × Nat)} (h : Made m m' slots) :
    m'.Fresh slots := by
  intro p hp
  rw [Memos.get, (h.nulls p hp).2]
  rfl

end Made

namespace Watch

theorem slotsAll_collections (ws : List (Watch W)) :
    slotsAll (ws.map .collection) = slotsAll ws := by
  induction ws with
  | nil => rfl
  | cons w ws ih => rw [List.map_cons, slotsAll, slotsAll, slots, ih]

theorem bareAll_collections (ws : List (Watch W)) :
    bareAll (ws.map .collection) = (bareAll ws).map .collection := by
  induction ws with
  | nil => rfl
  | cons w ws ih => rw [List.map_cons, bareAll, bareAll, bare, ih, List.map_cons]

/-! ## trees of one expression -/

section
variable {filters : FilterLookup W} {context : Option Value}

/-- Each tree of the expression is `t` with labels and slots, and the slots are its own. -/
def Builds (filters : FilterLookup W) (context : Option Value) (e : Expr) (t : Watch W) : Prop :=
  ∀ h root m w m', IsRoot context root → ofExpr h filters root e m = .ok w m' →
    w.bare = t ∧ Made m m' w.slots

def BuildsAll (filters : FilterLookup W) (context : Option Value) (es : List Expr)
    (ts : List (Watch W)) : Prop :=
  ∀ h root m ws m', IsRoot context root → ofExprs h filters root es m = .ok ws m' →
    bareAll ws = ts ∧ Made m m' (slotsAll ws)

theorem bare_of_isRoot {root : Watch W} (h : IsRoot context root) :
    root.bare = (context.elim .context fun v => .constant v none) ∧ root.slots = [] := by
  cases root with
  | context =>
    obtain rfl : context = none := h
    exact ⟨rfl, rfl⟩
  | constant v id =>
    obtain rfl : context = some v := h
    exact ⟨rfl, rfl⟩
  | _ => exact absurd h id

theorem exists_buildsAll {es : List Expr} (ih : ∀ e ∈ es, ∃ t, Builds filters context e t) :
    ∃ ts, BuildsAll filters context es ts := by
  induction es with
  | nil =>
    refine ⟨[], fun h root m ws m' _ hb => ?_⟩
    rw [ofExprs] at hb
    cases hb
    exact ⟨rfl, .nil m⟩
  | cons e es ihes =>
    obtain ⟨t, ht⟩ := ih e (by simp)
    obtain ⟨ts, hts⟩ := ihes fun e he => ih e (List.mem_cons_of_mem _ he)
    refine ⟨t :: ts, fun h root m ws m' hroot hb => ?_⟩
    rw [ofExprs] at hb
    obtain ⟨w, m₁, hw, hb⟩ := bind_eq_ok hb
    obtain ⟨ws', m₂, hws, hb⟩ := bind_eq_ok hb
    cases hb
    obtain ⟨hbare, hmade⟩ := ht h root m w m₁ hroot hw
    obtain ⟨hbares, hmades⟩ := hts h root m₁ ws' m' hroot hws
    exact ⟨by rw [bareAll, hbare, hbares], hmade.append hmades⟩

theorem Builds.constant {e : Expr} {v : Value}
    (he : ∀ (h : Heap) (root : Watch W), ofExpr h filters root e = pure (.constant v none)) :
    Builds filters context e (.constant v none) := by
  intro h root m w m' _ hb
  rw [he] at hb
  cases hb
  exact ⟨rfl, .nil m⟩

theorem Builds.scopeName (name : String) :
    Builds filters context (.scope name)
      (.field (context.elim .context fun v => .constant v none) name) := by
  intro h root m w m' hroot hb
  rw [ofExpr] at hb
  cases hb
  obtain ⟨hbare, hslots⟩ := bare_of_isRoot hroot
  rw [bare, hbare, slots, hslots]
  exact ⟨rfl, .nil m⟩

theorem Builds.member {receiver : Expr} {t : Watch W} (ht : Builds filters context receiver t)
    (name : String) : Builds filters context (.member receiver name) (.field t name) := by
  intro h root m w m' hroot hb
  rw [ofExpr] at hb
  obtain ⟨base, m₁, hbase, hb⟩ := bind_eq_ok hb
  cases hb
  obtain ⟨hbare, hmade⟩ := ht h root m base m' hroot hbase
  exact ⟨by rw [bare, hbare], hmade⟩

theorem Builds.callScope {args : List Expr} {ts : List (Watch W)}
    (hts : BuildsAll filters context args ts) (name : String) :
    Builds filters context (.callScope name args)
      (.method (context.elim .context fun v => .constant v none) name ts) := by
  intro h root m w m' hroot hb
  rw [ofExpr] at hb
  obtain ⟨ws, m₁, hws, hb⟩ := bind_eq_ok hb
  cases hb
  obtain ⟨hbare, hslots⟩ := bare_of_isRoot hroot
  obtain ⟨hbares, hmades⟩ := hts h root m ws m' hroot hws
  rw [bare, hbare, hbares, slots, hslots]
  exact ⟨rfl, hmades⟩

theorem Builds.callMember {receiver : Expr} {args : List Expr} {t : Watch W}
    {ts : List (Watch W)} (ht : Builds filters context receiver t)
    (hts : BuildsAll filters context args ts) (name : String) :
    Builds filters context (.callMember receiver name args) (.method t name ts) := by
  intro h root m w m' hroot hb
  rw [ofExpr] at hb
  obtain ⟨base, m₁, hbase, hb⟩ := bind_eq_ok hb
  obtain ⟨ws, m₂, hws, hb⟩ := bind_eq_ok hb
  cases hb
  obtain ⟨hbare, hmade⟩ := ht h root m base m₁ hroot hbase
  obtain ⟨hbares, hmades⟩ := hts h root m₁ ws m' hroot hws
  exact ⟨by rw [bare, hbare, hbares], hmade.append hmades⟩

/-- A pure node that is no filter. -/
theorem Builds.compute {e : Expr} {es : List Expr} {ts : List (Watch W)} (f : Combinator W)
    (hf : ∀ n, f.slots n = []) (hts : BuildsAll filters context es ts)
    (he : ∀ h root, ofExpr h filters root e =
      .compute (e.render h) f <$> ofExprs h filters root es) :
    Builds filters context e (.compute "" f.bare ts) := by
  intro h root m w m' hroot hb
  rw [he, ← bind_pure_comp] at hb
  obtain ⟨ws, m₁, hws, hb⟩ := bind_eq_ok hb
  cases hb
  obtain ⟨hbare, hmade⟩ := hts h root m ws m' hroot hws
  rw [bare, hbare, slots, hf, List.append_nil]
  exact ⟨rfl, hmade⟩

theorem Builds.filter {input : Expr} {name : String} {args : List Expr} {ts : List (Watch W)}
    {run : Filter W} (hrun : filters name = some run)
    (hts : BuildsAll filters context (input :: args) ts) :
    Builds filters context (.filter input name args)
      (.compute "" (.filter 0 run) (ts.map .collection)) := by
  intro h root m w m' hroot hb
  rw [ofExpr] at hb
  simp only [hrun] at hb
  obtain ⟨first, m₁, hfirst, hb⟩ := bind_eq_ok hb
  obtain ⟨rest, m₂, hrest, hb⟩ := bind_eq_ok hb
  obtain ⟨slot, m₃, hslot, hb⟩ := bind_eq_ok hb
  cases hb
  cases hslot
  have hall : ofExprs h filters root (input :: args) m = .ok (first :: rest) m₂ := by
    rw [ofExprs, bind_apply, hfirst]
    dsimp only
    rw [bind_apply, hrest]
    rfl
  obtain ⟨hbare, hmade⟩ := hts h root m _ m₂ hroot hall
  rw [bare, bareAll_collections, hbare, slots, slotsAll_collections]
  exact ⟨rfl, hmade.append (.new m₂ _)⟩

theorem exists_builds (e : Expr) : ∃ t, Builds filters context e t := by
  induction e using Expr.parts_induction with
  | step e ih =>
    have ihall : ∀ es, (∀ e' ∈ es, e' ∈ e.parts) → ∃ ts, BuildsAll filters context es ts :=
      fun es hes => exists_buildsAll fun e' he' => ih e' (hes e' he')
    cases e with
    | scope name => exact ⟨_, .scopeName name⟩
    | literal v => exact ⟨_, .constant fun h root => by rw [ofExpr]⟩
    | str s => exact ⟨_, .constant fun h root => by rw [ofExpr]⟩
    | member receiver name =>
      obtain ⟨t, ht⟩ := ih receiver (by simp [Expr.parts])
      exact ⟨_, ht.member name⟩
    | callScope name args =>
      obtain ⟨ts, hts⟩ := ihall args (by simp [Expr.parts])
      exact ⟨_, .callScope hts name⟩
    | callMember receiver name args =>
      obtain ⟨t, ht⟩ := ih receiver (by simp [Expr.parts])
      obtain ⟨ts, hts⟩ := ihall args (by simp +contextual [Expr.parts])
      exact ⟨_, ht.callMember hts name⟩
    | binary op left right =>
      obtain ⟨ts, hts⟩ := ihall [left, right] (by simp [Expr.parts])
      exact ⟨_, .compute (.binary op) (fun _ => rfl) hts fun h root => by simp [ofExpr, ofExprs]⟩
    | not operand =>
      obtain ⟨ts, hts⟩ := ihall [operand] (by simp [Expr.parts])
      exact ⟨_, .compute .not (fun _ => rfl) hts fun h root => by simp [ofExpr, ofExprs]⟩
    | conditional condition yes no =>
      obtain ⟨ts, hts⟩ := ihall [condition, yes, no] (by simp [Expr.parts])
      exact ⟨_, .compute .select (fun _ => rfl) hts fun h root => by simp [ofExpr, ofExprs]⟩
    | keyed receiver key =>
      obtain ⟨ts, hts⟩ := ihall [receiver, key] (by simp [Expr.parts])
      exact ⟨_, .compute .keyed (fun _ => rfl) hts fun h root => by simp [ofExpr, ofExprs]⟩
    | array elements =>
      obtain ⟨ts, hts⟩ := ihall elements (by simp [Expr.parts])
      exact ⟨_, .compute .array (fun _ => rfl) hts fun h root => by simp [ofExpr]⟩
    | object keys values =>
      obtain ⟨ts, hts⟩ := ihall values (by simp [Expr.parts])
      exact ⟨_, .compute (.object keys) (fun _ => rfl) hts fun h root => by simp [ofExpr]⟩
    | filter input name args =>
      obtain ⟨ts, hts⟩ := ihall (input :: args) (by simp [Expr.parts])
      cases hrun : filters name with
      | some run => exact ⟨_, .filter hrun hts⟩
      | none =>
        refine ⟨.context, fun h root m w m' _ hb => ?_⟩
        rw [ofExpr] at hb
        simp [hrun, refuse] at hb
    | callFunction | assign | chain =>
      refine ⟨.context, fun h root m w m' _ hb => ?_⟩
      rw [ofExpr] at hb
      simp [refuse] at hb

end

/-! ## used trees -/

/-- The memory of a tree after any readings of it, in any stores, whether they succeeded or not.
What other trees remember may change in between. -/
inductive Used (tree : Watch W) (made : Memos) : Memos → Prop where
  | start {m : Memos} : (∀ p ∈ tree.slots, m.get p.1 = made.get p.1) → Used tree made m
  | read {m m' : Memos} (env : Embedding W) (ambient : Value) (s : Store W) : Used tree made m →
      (∀ p ∈ tree.slots, m'.get p.1 = (memosAfter (tree.read env ambient ⟨s, m⟩)).get p.1) →
      Used tree made m'

/-- However a tree was used, its slots hold as many arguments as its filters have inputs. -/
theorem Used.fits {tree : Watch W} {before made m : Memos} (hmade : Made before made tree.slots)
    (h : Used tree made m) : m.Fits tree.slots := by
  induction h with
  | start hm => exact .of_get hm hmade.fresh.fits
  | read env ambient s _ hm ih =>
    exact .of_get hm ((recalls_read env ambient tree hmade.nodup).fits s _ ih)

end Watch

namespace WatchBuilder

variable {h h₂ : Heap} {filters : FilterLookup W} {source : String} {asCollection : Bool}
  {context : Option Value} {b b' b₂ b₂' : WatchBuilder} {tree fresh : Watch W}

/-- Two trees of one text differ in labels and slots only, and have slots of their own. -/
theorem bare_of_build (sound : b.cache.Sound) (sound₂ : b₂.cache.Sound)
    (built : build h filters source asCollection context b = .ok tree b')
    (again : build h₂ filters source asCollection context b₂ = .ok fresh b₂') :
    tree.bare = fresh.bare ∧ Made b.memos b'.memos tree.slots ∧
      Made b₂.memos b₂'.memos fresh.slots := by
  obtain ⟨_, e, root, w, hparse, hroot, hw, rfl⟩ := build_eq_ok sound built
  obtain ⟨_, e₂, root₂, w₂, hparse₂, hroot₂, hw₂, rfl⟩ := build_eq_ok sound₂ again
  obtain rfl : e = e₂ := by
    rw [hparse] at hparse₂
    cases hparse₂
    rfl
  obtain ⟨t, ht⟩ := Watch.exists_builds e
  obtain ⟨hbare, hmade⟩ := ht h root b.memos w b'.memos hroot hw
  obtain ⟨hbare₂, hmade₂⟩ := ht h₂ root₂ b₂.memos w₂ b₂'.memos hroot₂ hw₂
  cases asCollection with
  | false => exact ⟨hbare.trans hbare₂.symm, hmade, hmade₂⟩
  | true =>
    refine ⟨?_, hmade, hmade₂⟩
    show Watch.bare (.collection w) = Watch.bare (.collection w₂)
    rw [Watch.bare, Watch.bare, hbare, hbare₂]

/-- **A used tree calls its filters with what they observe, up to the sign of zeros.** Overlays of one
number count as one handle, whatever their parts are. Where every call receives just what it
observes, so that no zero takes the place of the other one, reading the tree is reading a fresh
one. -/
theorem read_used (sound : b.cache.Sound) (sound₂ : b₂.cache.Sound)
    (built : build h filters source asCollection context b = .ok tree b')
    (again : build h₂ filters source asCollection context b₂ = .ok fresh b₂') {m : Memos}
    (used : tree.Used b'.memos m) (env : Embedding W) (ambient : Value) (s : Store W) :
    (∀ call ∈ tree.calls env ambient ⟨s, m⟩,
      List.Forall₂ Value.Near call.received call.observed) ∧
      ((∀ call ∈ tree.calls env ambient ⟨s, m⟩, call.received = call.observed) →
        visible id (tree.read env ambient ⟨s, m⟩) =
          visible id (fresh.read env ambient ⟨s, b₂'.memos⟩)) := by
  obtain ⟨hbare, hmade, hmade₂⟩ := bare_of_build sound sound₂ built again
  have hrecalls := tree.recalls_read env ambient hmade.nodup
  have hrecalls₂ := fresh.recalls_read env ambient hmade₂.nodup
  refine ⟨hrecalls.near s m (used.fits hmade), fun hexact => ?_⟩
  calc visible id (tree.read env ambient ⟨s, m⟩)
    _ = visible id (tree.read env ambient ⟨s, .empty⟩) := hrecalls.exact s m hexact
    _ = visible id (tree.bare.read env ambient ⟨s, .empty⟩) := by
      rw [(tree.read_bare env ambient s).1]
    _ = visible id (fresh.bare.read env ambient ⟨s, .empty⟩) := by rw [hbare]
    _ = visible id (fresh.read env ambient ⟨s, .empty⟩) := by
      rw [(fresh.read_bare env ambient s).1]
    _ = visible id (fresh.read env ambient ⟨s, b₂'.memos⟩) :=
      (hrecalls₂.exact s b₂'.memos (hrecalls₂.fresh s b₂'.memos hmade₂.fresh)).symm

/-- A filter that gives back the piped value. -/
def passOn : Filter Unit := fun args => pure (args.headD .null)

/-- A store whose first object has the value under `a`. -/
def holding (v : Value) : Store Unit := ⟨{ objects := #[[("a", v)]] }, ()⟩

theorem build_passOn : ∃ b',
    build .empty (fun _ => some passOn) "a | f" false none {} =
      .ok (.compute "a | f" (.filter 0 passOn) [.collection (.field .context "a")]) b' ∧
    b'.memos = ⟨#[[.null]]⟩ := ⟨_, by cbv, by cbv⟩

/-- A filter that saw 1 is called with 2 when that is the value. -/
theorem read_used_changed :
    ∃ (tree : Watch Unit) (b' : WatchBuilder) (m : Memos),
      build .empty (fun _ => some passOn) "a | f" false none {} = .ok tree b' ∧
      m = memosAfter (tree.read .none (.object 0) ⟨holding (.int 1), b'.memos⟩) ∧
      tree.calls .none (.object 0) ⟨holding (.int 2), m⟩ = [⟨[.int 2], [.int 2]⟩] ∧
      visible id (tree.read .none (.object 0) ⟨holding (.int 2), m⟩) =
        visible id (tree.read .none (.object 0) ⟨holding (.int 2), b'.memos⟩) := by
  obtain ⟨b', built, hmemos⟩ := build_passOn
  refine ⟨_, b', _, built, rfl, by rw [hmemos]; rfl, ?_⟩
  refine (read_used ParseCache.sound_empty ParseCache.sound_empty built built
    (.read .none (.object 0) (holding (.int 1)) (.start fun _ _ => rfl) fun _ _ => rfl) .none
    (.object 0) (holding (.int 2))).2 ?_
  rw [hmemos]
  exact List.forall_mem_singleton.mpr rfl

/-- A filter that saw zero is called with it again when the value is the negative zero, and a fresh
one is not. -/
theorem read_used_zero :
    ∃ (tree : Watch Unit) (b' : WatchBuilder) (m : Memos),
      build .empty (fun _ => some passOn) "a | f" false none {} = .ok tree b' ∧
      tree.Used b'.memos m ∧
      tree.calls .none (.object 0) ⟨holding (.float (Binary64.zero true)), m⟩ =
        [⟨[.float (Binary64.zero true)], [.float (Binary64.zero false)]⟩] ∧
      visible Observed.get
          (tree.read .none (.object 0) ⟨holding (.float (Binary64.zero true)), m⟩) =
        .ok (.float (Binary64.zero false)) (holding (.float (Binary64.zero true))) ∧
      visible Observed.get
          (tree.read .none (.object 0) ⟨holding (.float (Binary64.zero true)), b'.memos⟩) =
        .ok (.float (Binary64.zero true)) (holding (.float (Binary64.zero true))) ∧
      Binary64.zero false ≠ Binary64.zero true := by
  obtain ⟨b', built, hmemos⟩ := build_passOn
  refine ⟨_, b', ⟨#[[.float (Binary64.zero false)]]⟩, built, ?_, rfl, rfl, by rw [hmemos]; rfl, ?_⟩
  · refine .read .none (.object 0) (holding (.float (Binary64.zero false)))
      (.start fun _ _ => rfl) ?_
    rw [hmemos]
    exact List.forall_mem_singleton.mpr rfl
  · intro hzero
    exact absurd (congrArg Float.toBits hzero) (by decide)

end WatchBuilder

end TemplateExpr
