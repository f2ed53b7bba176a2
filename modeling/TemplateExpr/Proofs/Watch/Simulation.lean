import TemplateExpr.Proofs.Action
import TemplateExpr.Proofs.Watch.Eager
import TemplateExpr.Watch.Build

/-!
# Reading a fresh watch tree

A tree that was just built uses only the slots that were made for it, and these hold nulls.
Reading it does to the store what evaluating everything does.

* `Memos.Untouched`   the slots of a range are as they were made;
* `Simulates`         an action does what another one does, and uses only the slots of a range;
* `Watch.BuildsReader`   the trees built from an expression read as it evaluates, with one rule for
                         each kind of node;
* `Watch.reads_ofExpr`   every expression is so.
-/

namespace TemplateExpr

variable {W α β γ δ : Type}

/-! ## slots -/

namespace Memos

/-- The slots from `lo` up to `hi` are those of `made`. -/
def Untouched (made : Memos) (lo hi : Nat) (m : Memos) : Prop :=
  ∀ i, lo ≤ i → i < hi → m.slots[i]? = made.slots[i]?

/-- Slots were only added. -/
structure Extends (m m' : Memos) : Prop where
  size_le : m.slots.size ≤ m'.slots.size
  slots_eq : ∀ i, i < m.slots.size → m'.slots[i]? = m.slots[i]?

theorem Extends.refl (m : Memos) : Extends m m := ⟨Nat.le_refl _, fun _ _ => rfl⟩

theorem Extends.trans {m₁ m₂ m₃ : Memos} (h : Extends m₁ m₂) (h' : Extends m₂ m₃) :
    Extends m₁ m₃ := by
  refine ⟨Nat.le_trans h.size_le h'.size_le, fun i hi => ?_⟩
  rw [h'.slots_eq i (Nat.lt_of_lt_of_le hi h.size_le), h.slots_eq i hi]

theorem extends_new (m : Memos) (arity : Nat) : Extends m (m.new arity).2 := by
  refine ⟨?_, fun i hi => ?_⟩
  · simp [new]
  · simp [new, Array.getElem?_push, Nat.ne_of_lt hi]

theorem same_null {v : Value} (h : Value.null.same v = true) : v = .null := by
  cases v <;> first | rfl | simp [Value.same] at h

/-- The first arguments of a filter replace all the nulls. -/
theorem refresh_nulls (args : List Value) :
    refresh (List.replicate args.length .null) args = args := by
  induction args with
  | nil => rfl
  | cons v args ih =>
    rw [List.length_cons, List.replicate_succ, refresh, ih]
    split
    · next h => rw [same_null h]
    · rfl

end Memos

/-! ## simulation -/

/-- What is seen of a result when the slots are left out. -/
def visible (f : α → β) :
    EStateM.Result EvalError (WatchStore W) α → EStateM.Result EvalError (Store W) β
  | .ok a s => .ok (f a) s.store
  | .error e s => .error e s.store

def memosAfter : EStateM.Result EvalError (WatchStore W) α → Memos
  | .ok _ s => s.memos
  | .error _ s => s.memos

/-- With the slots of the range as they were made, `x` does to the store what `y` does, with the
same outcome up to `f`, and leaves all other slots. -/
def Simulates (made : Memos) (lo hi : Nat) (f : α → β) (x : WatchAction W α)
    (y : Action W β) : Prop :=
  ∀ s m, made.Untouched lo hi m →
    visible f (x ⟨s, m⟩) = y s ∧
      ∀ i, i < lo ∨ hi ≤ i → (memosAfter (x ⟨s, m⟩)).slots[i]? = m.slots[i]?

namespace Simulates

variable {made : Memos} {lo mid hi : Nat}

theorem pure {f : α → β} {a : α} {b : β} (h : f a = b) :
    Simulates (W := W) made lo hi f (Pure.pure a) (Pure.pure b) := by
  intro s m _
  exact ⟨by rw [← h]; rfl, fun _ _ => rfl⟩

theorem lift (x : Action W α) : Simulates made lo hi id (Action.lift x) x := by
  intro s m _
  unfold Action.lift
  cases x s with
  | ok a s' => exact ⟨rfl, fun _ _ => rfl⟩
  | error e s' => exact ⟨rfl, fun _ _ => rfl⟩

/-- The slots of the second action are still untouched after the first. -/
theorem bind_of_returns {f : α → β} {g : γ → δ} {x : WatchAction W α} {y : Action W β}
    {k : α → WatchAction W γ} {k' : β → Action W δ} (hlo : lo ≤ mid) (hhi : mid ≤ hi)
    (hx : Simulates made lo mid f x y)
    (hk : ∀ a s s', x s = .ok a s' → Simulates made mid hi g (k a) (k' (f a))) :
    Simulates made lo hi g (x >>= k) (y >>= k') := by
  intro s m hm
  obtain ⟨hvisible, hframe⟩ := hx s m fun i h₁ h₂ => hm i h₁ (Nat.lt_of_lt_of_le h₂ hhi)
  rw [bind_apply, bind_apply, ← hvisible]
  cases hr : x ⟨s, m⟩ with
  | error e s' =>
    rw [hr] at hframe
    refine ⟨rfl, fun i hi' => hframe i (hi'.imp id fun h => Nat.le_trans hhi h)⟩
  | ok a s' =>
    rw [hr] at hframe
    have hm' : made.Untouched mid hi s'.memos := by
      intro i h₁ h₂
      rw [← hm i (Nat.le_trans hlo h₁) h₂]
      exact hframe i (.inr h₁)
    obtain ⟨hvisible', hframe'⟩ := hk a _ s' hr s'.store s'.memos hm'
    refine ⟨hvisible', fun i hi' => ?_⟩
    have hfirst := hframe i (hi'.imp id fun h => Nat.le_trans hhi h)
    have hsecond := hframe' i (hi'.imp (fun h => Nat.lt_of_lt_of_le h hlo) id)
    exact hsecond.trans hfirst

theorem bind {f : α → β} {g : γ → δ} {x : WatchAction W α} {y : Action W β}
    {k : α → WatchAction W γ} {k' : β → Action W δ} (hlo : lo ≤ mid) (hhi : mid ≤ hi)
    (hx : Simulates made lo mid f x y) (hk : ∀ a, Simulates made mid hi g (k a) (k' (f a))) :
    Simulates made lo hi g (x >>= k) (y >>= k') :=
  bind_of_returns hlo hhi hx fun a _ _ _ => hk a

theorem map {f : α → β} {h : γ → α} {x : WatchAction W γ} {y : Action W β}
    (hx : Simulates made lo hi (fun c => f (h c)) x y) : Simulates made lo hi f (h <$> x) y := by
  intro s m hm
  obtain ⟨hvisible, hframe⟩ := hx s m hm
  rw [map_apply]
  cases hr : x ⟨s, m⟩ with
  | ok c s' =>
    rw [hr] at hvisible hframe
    exact ⟨hvisible, hframe⟩
  | error e s' =>
    rw [hr] at hvisible hframe
    exact ⟨hvisible, hframe⟩

/-- Slots made later do not matter. -/
theorem extend {made' : Memos} {f : α → β} {x : WatchAction W α} {y : Action W β}
    (hx : Simulates made lo made.slots.size f x y) (h : made.Extends made') :
    Simulates made' lo made.slots.size f x y := by
  intro s m hm
  refine hx s m fun i h₁ h₂ => ?_
  rw [hm i h₁ h₂, h.slots_eq i h₂]

/-- A fresh slot gives back the arguments. -/
theorem remembered {args : List Value}
    (h : made.slots[lo]? = some (List.replicate args.length .null)) :
    Simulates (W := W) made lo (lo + 1) id (Combinator.remembered lo args) (Pure.pure args) := by
  intro s m hm
  have hslot : m.get lo = List.replicate args.length .null := by
    rw [Memos.get, hm lo (Nat.le_refl _) (Nat.lt_succ_self _), h]
    rfl
  unfold Combinator.remembered
  simp only [hslot, Memos.refresh_nulls]
  refine ⟨rfl, fun i hi => ?_⟩
  have hne : lo ≠ i := by omega
  exact Array.getElem?_setIfInBounds_ne hne

end Simulates

/-! ## reading the nodes of a tree -/

namespace Watch

variable {env : Embedding W} {ambient : Value} {made : Memos} {lo mid hi : Nat}

/-- Reading the tree does what the action does. -/
def Reads (env : Embedding W) (ambient : Value) (made : Memos) (lo hi : Nat) (w : Watch W)
    (y : Action W Value) : Prop :=
  Simulates made lo hi Observed.get (w.read env ambient) y

def ReadsAll (env : Embedding W) (ambient : Value) (made : Memos) (lo hi : Nat)
    (ws : List (Watch W)) (y : Action W (List Value)) : Prop :=
  Simulates made lo hi (List.map Observed.get) (readAll env ambient ws) y

theorem simulates_value {x : WatchAction W Value} {y : Action W Value}
    (h : Simulates made lo hi id x y) :
    Simulates made lo hi Observed.get (do return .value (← x)) y := by
  rw [bind_pure_comp]
  exact .map h

theorem readsAll_nil : ReadsAll env ambient made lo hi [] (pure []) := by
  unfold ReadsAll
  rw [readAll]
  exact .pure rfl

theorem readsAll_cons {w : Watch W} {ws : List (Watch W)} {y : Action W Value}
    {ys : Action W (List Value)} (hlo : lo ≤ mid) (hhi : mid ≤ hi)
    (hw : Reads env ambient made lo mid w y) (hws : ReadsAll env ambient made mid hi ws ys) :
    ReadsAll env ambient made lo hi (w :: ws) (do let v ← y; return v :: (← ys)) := by
  unfold ReadsAll
  rw [readAll]
  refine .bind hlo hhi hw fun o => ?_
  exact .bind hhi (Nat.le_refl _) hws fun os => .pure rfl

theorem length_readAll {ws : List (Watch W)} {os : List Observed} {s s' : WatchStore W}
    (h : readAll env ambient ws s = .ok os s') : os.length = ws.length := by
  induction ws generalizing os s with
  | nil =>
    rw [readAll] at h
    cases h
    rfl
  | cons w ws ih =>
    rw [readAll] at h
    obtain ⟨o, s₁, _, h⟩ := bind_eq_ok h
    obtain ⟨os', s₂, hos, h⟩ := bind_eq_ok h
    cases h
    rw [List.length_cons, List.length_cons, ih hos]

theorem read_collection (w : Watch W) :
    read env ambient (.collection w) =
      (fun o => Observed.changes o.get) <$> read env ambient w := by
  rw [read, bind_pure_comp]

theorem reads_collection {w : Watch W} {y : Action W Value}
    (h : Reads env ambient made lo hi w y) : Reads env ambient made lo hi (.collection w) y := by
  unfold Reads
  rw [read_collection]
  exact .map h

theorem readAll_collections (ws : List (Watch W)) :
    readAll env ambient (ws.map .collection) =
      (List.map fun o => Observed.changes o.get) <$> readAll env ambient ws := by
  induction ws with
  | nil => simp [readAll]
  | cons w ws ih => simp [readAll, read_collection, ih]

theorem readsAll_collections {ws : List (Watch W)} {ys : Action W (List Value)}
    (h : ReadsAll env ambient made lo hi ws ys) :
    ReadsAll env ambient made lo hi (ws.map .collection) ys := by
  unfold ReadsAll
  rw [readAll_collections]
  refine .map ?_
  have hget : (fun os : List Observed => (os.map fun o => Observed.changes o.get).map Observed.get) =
      List.map Observed.get := by
    funext os
    rw [List.map_map]
    rfl
  rw [hget]
  exact h

theorem reads_field {base : Watch W} {y : Action W Value} (hle : lo ≤ hi)
    (h : Reads env ambient made lo hi base y) (name : String) :
    Reads env ambient made lo hi (.field base name) (do (← y).get env name) := by
  unfold Reads
  rw [read]
  exact .bind hle (Nat.le_refl _) h fun o => simulates_value (.lift _)

theorem simulates_answer (name : String) (v : Option Value) :
    Simulates (W := W) made lo hi Observed.get
      (match v with
        | some v => return .value v
        | none => Action.lift (Action.fail (.undefinedFunction name))) (Action.answer name v) := by
  cases v with
  | some v => exact .pure rfl
  | none =>
    intro s m _
    exact ⟨rfl, fun _ _ => rfl⟩

theorem reads_method {base : Watch W} {args : List (Watch W)} {y : Action W Value}
    {ys : Action W (List Value)} (hlo : lo ≤ mid) (hhi : mid ≤ hi)
    (hbase : Reads env ambient made lo mid base y)
    (hargs : ReadsAll env ambient made mid hi args ys) (name : String) :
    Reads env ambient made lo hi (.method base name args) (do
      let v ← y
      if v.isNull then return .null
      let values ← ys
      Action.answer name (← v.callMethod env name values)) := by
  unfold Reads
  rw [read]
  refine .bind hlo hhi hbase fun o => ?_
  cases hnull : o.get.isNull with
  | true =>
    simp only [hnull, if_true]
    exact .pure rfl
  | false =>
    simp only [hnull, Bool.false_eq_true, if_false]
    refine .bind hhi (Nat.le_refl _) hargs fun os => ?_
    refine .bind (Nat.le_refl _) (Nat.le_refl _) (.lift _) fun v => ?_
    exact simulates_answer name v

/-- A pure node, by what its function does with the values of its inputs. -/
theorem reads_compute {label : String} {f : Combinator W} {args : List (Watch W)}
    {ys : Action W (List Value)} {k : List Value → Action W Value} (hlo : lo ≤ mid)
    (hhi : mid ≤ hi) (hargs : ReadsAll env ambient made lo mid args ys)
    (hf : ∀ os : List Observed, os.length = args.length →
      Simulates made mid hi id (f.apply env os) (k (os.map Observed.get))) :
    Reads env ambient made lo hi (.compute label f args) (do k (← ys)) := by
  unfold Reads
  rw [read]
  refine .bind_of_returns hlo hhi hargs fun os s s' hos => ?_
  exact simulates_value (hf os (length_readAll hos))

theorem reads_filter (label : String) {args : List (Watch W)} {ys : Action W (List Value)}
    (run : Filter W) (hle : lo ≤ mid) (hargs : ReadsAll env ambient made lo mid args ys)
    (hslot : made.slots[mid]? = some (List.replicate args.length .null)) :
    Reads env ambient made lo (mid + 1) (.compute label (.filter mid run) args)
      (do run (← ys)) := by
  refine reads_compute hle (Nat.le_succ _) hargs fun os hos => ?_
  have hsame : made.slots[mid]? =
      some (List.replicate (os.map Observed.get).length .null) := by
    rw [List.length_map, hos, hslot]
  have hrun := Simulates.bind (Nat.le_succ mid) (Nat.le_refl _)
    (Simulates.remembered (W := W) hsame) fun values => .lift (run values)
  simpa [Combinator.apply] using hrun

theorem reads_two {label : String} {f : Combinator W} {w₁ w₂ : Watch W} {y₁ y₂ : Action W Value}
    {k : Value → Value → Action W Value} (hlo : lo ≤ mid) (hhi : mid ≤ hi)
    (h₁ : Reads env ambient made lo mid w₁ y₁) (h₂ : Reads env ambient made mid hi w₂ y₂)
    (hf : ∀ a b : Observed, Simulates made hi hi id (f.apply env [a, b]) (k a.get b.get)) :
    Reads env ambient made lo hi (.compute label f [w₁, w₂])
      (do let a ← y₁; let b ← y₂; k a b) := by
  unfold Reads
  rw [read]
  simp only [readAll, bind_assoc, pure_bind]
  refine .bind hlo hhi h₁ fun a => ?_
  refine .bind hhi (Nat.le_refl _) h₂ fun b => ?_
  exact simulates_value (hf a b)

/-! ## building -/

section
variable (h : Heap) (filters : FilterLookup W) (root : Watch W)

/-- The trees built from an expression read as it evaluates. -/
def BuildsReader (env : Embedding W) (ambient scope : Value) (e : Expr) : Prop :=
  ∀ m w m', ofExpr h filters root e m = .ok w m' →
    m.Extends m' ∧ Reads env ambient m' m.slots.size m'.slots.size w
      (e.evaluateEagerly env filters scope)

variable {h filters root} {scope : Value}

theorem reads_ofExprs {es : List Expr}
    (ih : ∀ e ∈ es, BuildsReader h filters root env ambient scope e) {m m' : Memos}
    {ws : List (Watch W)} (hb : ofExprs h filters root es m = .ok ws m') :
    m.Extends m' ∧ ReadsAll env ambient m' m.slots.size m'.slots.size ws
      (Expr.evaluateAllEagerly env filters scope es) := by
  induction es generalizing m ws with
  | nil =>
    rw [ofExprs] at hb
    cases hb
    rw [Expr.evaluateAllEagerly]
    exact ⟨.refl _, readsAll_nil⟩
  | cons e es ihes =>
    rw [ofExprs] at hb
    obtain ⟨w, m₁, hw, hb⟩ := bind_eq_ok hb
    obtain ⟨ws', m₂, hws, hb⟩ := bind_eq_ok hb
    cases hb
    obtain ⟨hext, hread⟩ := ih e (by simp) m w m₁ hw
    obtain ⟨hext', hreads⟩ := ihes (fun e he => ih e (by simp [he])) hws
    rw [Expr.evaluateAllEagerly]
    exact ⟨hext.trans hext',
      readsAll_cons hext.size_le hext'.size_le (Simulates.extend hread hext') hreads⟩

theorem reads_root (hroot : ∀ s, root.read env ambient s = .ok (.value scope) s) :
    Reads env ambient made lo hi root (pure scope) := by
  intro s m _
  rw [hroot]
  exact ⟨rfl, fun _ _ => rfl⟩

namespace BuildsReader

theorem scopeName (hroot : ∀ s, root.read env ambient s = .ok (.value scope) s) (name : String) :
    BuildsReader h filters root env ambient scope (.scope name) := by
  intro m w m' hb
  rw [ofExpr] at hb
  cases hb
  refine ⟨.refl _, ?_⟩
  rw [Expr.evaluateEagerly]
  simpa using reads_field (Nat.le_refl _) (reads_root hroot) name

theorem member {receiver : Expr} (name : String)
    (hr : BuildsReader h filters root env ambient scope receiver) :
    BuildsReader h filters root env ambient scope (.member receiver name) := by
  intro m w m' hb
  rw [ofExpr] at hb
  obtain ⟨base, m₁, hbase, hb⟩ := bind_eq_ok hb
  cases hb
  obtain ⟨hext, hread⟩ := hr m base m' hbase
  rw [Expr.evaluateEagerly]
  exact ⟨hext, reads_field hext.size_le hread name⟩

theorem callScope {args : List Expr}
    (hroot : ∀ s, root.read env ambient s = .ok (.value scope) s) (hscope : scope.isNull = false)
    (name : String) (ha : ∀ a ∈ args, BuildsReader h filters root env ambient scope a) :
    BuildsReader h filters root env ambient scope (.callScope name args) := by
  intro m w m' hb
  rw [ofExpr] at hb
  obtain ⟨ws, m₁, hws, hb⟩ := bind_eq_ok hb
  cases hb
  obtain ⟨hext, hreads⟩ := reads_ofExprs ha hws
  refine ⟨hext, ?_⟩
  rw [Expr.evaluateEagerly]
  simpa [hscope] using
    reads_method (Nat.le_refl _) hext.size_le (reads_root hroot) hreads name

theorem callMember {receiver : Expr} {args : List Expr} (name : String)
    (hr : BuildsReader h filters root env ambient scope receiver)
    (ha : ∀ a ∈ args, BuildsReader h filters root env ambient scope a) :
    BuildsReader h filters root env ambient scope (.callMember receiver name args) := by
  intro m w m' hb
  rw [ofExpr] at hb
  obtain ⟨base, m₁, hbase, hb⟩ := bind_eq_ok hb
  obtain ⟨ws, m₂, hws, hb⟩ := bind_eq_ok hb
  cases hb
  obtain ⟨hext, hread⟩ := hr m base m₁ hbase
  obtain ⟨hext', hreads⟩ := reads_ofExprs ha hws
  rw [Expr.evaluateEagerly]
  exact ⟨hext.trans hext',
    reads_method hext.size_le hext'.size_le (Simulates.extend hread hext') hreads name⟩

theorem constant {e : Expr} {v : Value} {id : Option String}
    (build : ofExpr h filters root e = pure (.constant v id))
    (evaluate : e.evaluateEagerly env filters scope = pure v) :
    BuildsReader h filters root env ambient scope e := by
  intro m w m' hb
  rw [build] at hb
  cases hb
  refine ⟨.refl _, ?_⟩
  rw [evaluate]
  unfold Reads
  rw [read]
  exact .pure rfl

/-- A node of two inputs, by what its function does with their values. -/
theorem two {e left right : Expr} {label : String} {f : Combinator W}
    {k : Value → Value → Action W Value}
    (build : ofExpr h filters root e = do
      let l ← ofExpr h filters root left
      let r ← ofExpr h filters root right
      return .compute label f [l, r])
    (evaluate : e.evaluateEagerly env filters scope = do
      let l ← left.evaluateEagerly env filters scope
      let r ← right.evaluateEagerly env filters scope
      k l r)
    (hl : BuildsReader h filters root env ambient scope left)
    (hr : BuildsReader h filters root env ambient scope right)
    (hf : ∀ (made : Memos) (n : Nat) (a b : Observed),
      Simulates made n n id (f.apply env [a, b]) (k a.get b.get)) :
    BuildsReader h filters root env ambient scope e := by
  intro m w m' hb
  rw [build] at hb
  obtain ⟨l, m₁, hleft, hb⟩ := bind_eq_ok hb
  obtain ⟨r, m₂, hright, hb⟩ := bind_eq_ok hb
  cases hb
  obtain ⟨hext, hread⟩ := hl m l m₁ hleft
  obtain ⟨hext', hread'⟩ := hr m₁ r m' hright
  rw [evaluate]
  exact ⟨hext.trans hext', reads_two hext.size_le hext'.size_le
    (Simulates.extend hread hext') hread' (hf _ _)⟩

/-- A node of a list of inputs, by what its function does with their values. -/
theorem all {e : Expr} (es : List Expr) {label : String} {f : Combinator W}
    {k : List Value → Action W Value}
    (build : ofExpr h filters root e = do
      let args ← ofExprs h filters root es
      return .compute label f args)
    (evaluate : e.evaluateEagerly env filters scope = do
      k (← Expr.evaluateAllEagerly env filters scope es))
    (ha : ∀ a ∈ es, BuildsReader h filters root env ambient scope a)
    (hf : ∀ (made : Memos) (n : Nat) (os : List Observed),
      Simulates made n n id (f.apply env os) (k (os.map Observed.get))) :
    BuildsReader h filters root env ambient scope e := by
  intro m w m' hb
  rw [build] at hb
  obtain ⟨ws, m₁, hws, hb⟩ := bind_eq_ok hb
  cases hb
  obtain ⟨hext, hreads⟩ := reads_ofExprs ha hws
  rw [evaluate]
  exact ⟨hext, reads_compute hext.size_le (Nat.le_refl _) hreads fun os _ => hf _ _ os⟩

theorem not {operand : Expr} (ho : BuildsReader h filters root env ambient scope operand) :
    BuildsReader h filters root env ambient scope (.not operand) := by
  intro m w m' hb
  rw [ofExpr] at hb
  obtain ⟨v, m₁, hv, hb⟩ := bind_eq_ok hb
  cases hb
  obtain ⟨hext, hread⟩ := ho m v m' hv
  rw [Expr.evaluateEagerly]
  refine ⟨hext, ?_⟩
  unfold Reads
  rw [read]
  simp only [readAll, bind_assoc, pure_bind]
  refine .bind hext.size_le (Nat.le_refl _) hread fun o => simulates_value ?_
  exact .pure rfl

theorem conditional {condition yes no : Expr}
    (hc : BuildsReader h filters root env ambient scope condition)
    (hy : BuildsReader h filters root env ambient scope yes)
    (hn : BuildsReader h filters root env ambient scope no) :
    BuildsReader h filters root env ambient scope (.conditional condition yes no) := by
  intro m w m' hb
  rw [ofExpr] at hb
  obtain ⟨c, m₁, hbc, hb⟩ := bind_eq_ok hb
  obtain ⟨y, m₂, hby, hb⟩ := bind_eq_ok hb
  obtain ⟨n, m₃, hbn, hb⟩ := bind_eq_ok hb
  cases hb
  obtain ⟨hextc, hreadc⟩ := hc m c m₁ hbc
  obtain ⟨hexty, hready⟩ := hy m₁ y m₂ hby
  obtain ⟨hextn, hreadn⟩ := hn m₂ n m' hbn
  have hextyn := hexty.trans hextn
  rw [Expr.evaluateEagerly]
  refine ⟨hextc.trans hextyn, ?_⟩
  unfold Reads
  rw [read]
  simp only [readAll, bind_assoc, pure_bind]
  refine .bind hextc.size_le hextyn.size_le (Simulates.extend hreadc hextyn) fun c => ?_
  refine .bind hexty.size_le hextn.size_le (Simulates.extend hready hextn) fun y => ?_
  refine .bind hextn.size_le (Nat.le_refl _) hreadn fun n => simulates_value ?_
  exact .pure rfl

theorem filter {input : Expr} {args : List Expr} (name : String)
    (hi : BuildsReader h filters root env ambient scope input)
    (ha : ∀ a ∈ args, BuildsReader h filters root env ambient scope a) :
    BuildsReader h filters root env ambient scope (.filter input name args) := by
  intro m w m' hb
  rw [ofExpr] at hb
  cases hf : filters name with
  | none =>
    rw [hf] at hb
    simp [refuse] at hb
  | some run =>
    simp only [hf] at hb
    obtain ⟨first, m₁, hfirst, hb⟩ := bind_eq_ok hb
    obtain ⟨rest, m₂, hrest, hb⟩ := bind_eq_ok hb
    obtain ⟨slot, m₃, hslot, hb⟩ := bind_eq_ok hb
    cases hb
    obtain ⟨rfl, rfl⟩ : slot = m₂.slots.size ∧ m' = (m₂.new (rest.length + 1)).2 := by
      simp [newSlot, Memos.new] at hslot
      exact ⟨hslot.1.symm, by simp [← hslot.2, Memos.new]⟩
    obtain ⟨hext, hread⟩ := hi m first m₁ hfirst
    obtain ⟨hext', hreads⟩ := reads_ofExprs ha hrest
    -- the slot of the filter comes after those of its inputs
    have hnew := m₂.extends_new (rest.length + 1)
    have hinputs := readsAll_collections (readsAll_cons hext.size_le hext'.size_le
      (Simulates.extend hread (hext'.trans hnew)) (Simulates.extend hreads hnew))
    have hfilter := reads_filter ((Expr.filter input name args).render h) run
      (hext.trans hext').size_le hinputs (by simp [Memos.new])
    refine ⟨(hext.trans hext').trans hnew, ?_⟩
    rw [Expr.evaluateEagerly, hf]
    simpa [Memos.new] using hfilter

end BuildsReader

/-- Every tree that is built reads as its expression evaluates when nothing is skipped. -/
theorem reads_ofExpr (hroot : ∀ s, root.read env ambient s = .ok (.value scope) s)
    (hscope : scope.isNull = false) (e : Expr) :
    BuildsReader h filters root env ambient scope e := by
  induction e using Expr.parts_induction with
  | step e ih =>
    cases e with
    | scope name => exact .scopeName hroot name
    | member receiver name => exact .member name (ih receiver (by simp [Expr.parts]))
    | callScope name args => exact .callScope hroot hscope name ih
    | callMember receiver name args =>
      exact .callMember name (ih receiver (by simp [Expr.parts]))
        fun a ha => ih a (by simp [Expr.parts, ha])
    | binary op left right =>
      exact .two (by rw [ofExpr]) (by rw [Expr.evaluateEagerly])
        (ih left (by simp [Expr.parts])) (ih right (by simp [Expr.parts])) fun _ _ _ _ => .lift _
    | keyed receiver key =>
      exact .two (by rw [ofExpr]) (by rw [Expr.evaluateEagerly])
        (ih receiver (by simp [Expr.parts])) (ih key (by simp [Expr.parts]))
        fun _ _ _ _ => .lift _
    | not operand => exact .not (ih operand (by simp [Expr.parts]))
    | conditional condition yes no =>
      exact .conditional (ih condition (by simp [Expr.parts])) (ih yes (by simp [Expr.parts]))
        (ih no (by simp [Expr.parts]))
    | literal v => exact .constant (by rw [ofExpr]) (by rw [Expr.evaluateEagerly])
    | str s => exact .constant (by rw [ofExpr]) (by rw [Expr.evaluateEagerly])
    | array elements =>
      exact .all elements (by rw [ofExpr]) (by rw [Expr.evaluateEagerly]) ih
        fun _ _ os => .lift (Value.ofItems (os.map Observed.get))
    | object keys values =>
      exact .all values (by rw [ofExpr]) (by rw [Expr.evaluateEagerly]) ih
        fun _ _ os => .lift (Value.ofEntries keys (os.map Observed.get))
    | filter input name args =>
      exact .filter name (ih input (by simp [Expr.parts]))
        fun a ha => ih a (by simp [Expr.parts, ha])
    | callFunction | assign | chain =>
      intro m w m' hb
      rw [ofExpr] at hb
      simp [refuse] at hb

end

end Watch

end TemplateExpr
