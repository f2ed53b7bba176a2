import TemplateExpr.Filter
import TemplateExpr.Proofs.Heap.Invariance

/-!
# Comparing two runs

Two runs are compared step by step. What may be said of their stores depends on the references that
answer to each other so far, and these become more as both runs make arrays and objects.

* `Comparison`               what is kept between the stores of two runs;
* `Comparison.Relates`       actions that take compared stores to compared stores;
* `Comparison.Respects`      an embedding program whose functions and host objects do;
* `Value.relates_get`, `Value.relates_keyed`, `Value.relates_callMethod`   the accesses then do too;
* `Comparison.alike`         runs that are one and the same, where all that was in a heap is kept.
-/

namespace TemplateExpr

variable {W α β γ δ : Type}

namespace Correspondence

variable {start : Heap}

/-- The relations of results. -/
def Values (ρ : Correspondence start) (vs vs' : List Value) : Prop :=
  List.Forall₂ ρ.Corresponds vs vs'

def Found (ρ : Correspondence start) (v v' : Option Value) : Prop :=
  Option.Rel ρ.Corresponds v v'

end Correspondence

open Correspondence

/-! ## comparisons -/

/-- What is kept between the stores of two runs. -/
structure Comparison (W : Type) (start : Heap) where
  /-- The stores, where these references answer to each other. -/
  Stores : Correspondence start → Store W → Store W → Prop
  /-- Where the first run fails, the second may do anything. -/
  lenient : Prop
  /-- The stores of two runs that have failed. -/
  Failed : Store W → Store W → Prop
  reads : ∀ {ρ s s'}, Stores ρ s s' → ρ.Reads s.heap s'.heap
  failed : ∀ {ρ s s'}, Stores ρ s s' → Failed s s'
  newArray : ∀ {ρ s s'} {items items' : List Value}, Stores ρ s s' → ρ.Values items items' →
    ∃ ρ' : Correspondence start, Le ρ ρ' ∧
      ρ'.arrays s.heap.arrays.size s'.heap.arrays.size ∧
      Stores ρ' { s with heap := (s.heap.newArray items.toArray).2 }
        { s' with heap := (s'.heap.newArray items'.toArray).2 }
  newObject : ∀ {ρ s s'} {fields fields' : Fields Value}, Stores ρ s s' →
    List.Forall₂ ρ.Pairs fields fields' →
    ∃ ρ' : Correspondence start, Le ρ ρ' ∧
      ρ'.objects s.heap.objects.size s'.heap.objects.size ∧
      Stores ρ' { s with heap := (s.heap.newObject fields).2 }
        { s' with heap := (s'.heap.newObject fields').2 }

namespace Comparison

variable {start : Heap}

/-- From compared stores both succeed with related results, or both fail with the same error. -/
def Relates (c : Comparison W start) (ρ : Correspondence start)
    (R : Correspondence start → α → β → Prop) (x : Action W α) (y : Action W β) : Prop :=
  ∀ s s', c.Stores ρ s s' →
    match x s with
    | .ok a t => ∃ ρ' b t', y s' = .ok b t' ∧ Le ρ ρ' ∧ c.Stores ρ' t t' ∧ R ρ' a b
    | .error e t => c.lenient ∨ ∃ t', y s' = .error e t' ∧ c.Failed t t'

namespace Relates

variable {c : Comparison W start} {ρ : Correspondence start}
  {R : Correspondence start → α → β → Prop} {S : Correspondence start → γ → δ → Prop}

theorem pure {a : α} {b : β} (h : R ρ a b) :
    c.Relates ρ R (Pure.pure a : Action W α) (Pure.pure b : Action W β) :=
  fun _ s' hs => ⟨ρ, b, s', rfl, .refl ρ, hs, h⟩

theorem fail (e : EvalError) :
    c.Relates ρ R (Action.fail e : Action W α) (Action.fail e : Action W β) :=
  fun _ s' hs => .inr ⟨s', rfl, c.failed hs⟩

theorem bind {x : Action W α} {y : Action W β} {k : α → Action W γ} {k' : β → Action W δ}
    (hx : c.Relates ρ R x y)
    (hk : ∀ ρ', Le ρ ρ' → ∀ a b, R ρ' a b → c.Relates ρ' S (k a) (k' b)) :
    c.Relates ρ S (x >>= k) (y >>= k') := by
  intro s s' hs
  have hfirst := hx s s' hs
  rw [bind_apply, bind_apply]
  -- an error of the first step is the error of both; else the second step starts from the
  -- references that answer to each other by then
  cases hxs : x s with
  | error e t =>
    rw [hxs] at hfirst
    refine hfirst.imp id ?_
    rintro ⟨t', hy, hfailed⟩
    rw [hy]
    exact ⟨t', rfl, hfailed⟩
  | ok a t =>
    rw [hxs] at hfirst
    obtain ⟨ρ₁, b, t', hy, hle, hs₁, hab⟩ := hfirst
    have hrest := hk ρ₁ hle a b hab t t' hs₁
    rw [hy]
    dsimp only
    cases hka : k a t with
    | error e u =>
      rw [hka] at hrest
      exact hrest
    | ok d u =>
      rw [hka] at hrest
      obtain ⟨ρ₂, d', u', hk', hle', hs₂, hd⟩ := hrest
      exact ⟨ρ₂, d', u', hk', hle.trans hle', hs₂, hd⟩

/-- Both look at their heaps. -/
theorem heap_bind {k : Heap → Action W α} {k' : Heap → Action W β}
    (hk : ∀ h h', ρ.Reads h h' → c.Relates ρ R (k h) (k' h')) :
    c.Relates ρ R (Action.heap >>= k) (Action.heap >>= k') :=
  fun s s' hs => hk s.heap s'.heap (c.reads hs) s s' hs

theorem ofExcept {x y : Except EvalError Value} (h : ρ.Answers x y) :
    c.Relates ρ Corresponds (Action.ofExcept x) (Action.ofExcept y) := by
  cases h with
  | ok hv => exact .pure hv
  | error e => exact .fail e

theorem newArray {items items' : List Value} (h : ρ.Values items items') :
    c.Relates ρ Corresponds (Action.newArray items.toArray) (Action.newArray items'.toArray) := by
  intro s s' hs
  obtain ⟨ρ', hle, hnew, hs'⟩ := c.newArray hs h
  exact ⟨ρ', _, _, rfl, hle, hs', .array hnew⟩

theorem newObject {fields fields' : Fields Value} (h : List.Forall₂ ρ.Pairs fields fields') :
    c.Relates ρ Corresponds (Action.newObject fields) (Action.newObject fields') := by
  intro s s' hs
  obtain ⟨ρ', hle, hnew, hs'⟩ := c.newObject hs h
  exact ⟨ρ', _, _, rfl, hle, hs', .object hnew⟩

/-- How a call ends. -/
theorem answer (name : String) {v v' : Option Value} (hv : ρ.Found v v') :
    c.Relates ρ Corresponds (Action.answer name v) (Action.answer name v') := by
  cases hv with
  | some hv => exact .pure hv
  | none => exact .fail _

end Relates

/-- The functions and host objects answer alike in both runs. -/
structure Respects (c : Comparison W start) (env : Embedding W) : Prop where
  call : ∀ ρ f args args', ρ.Values args args' →
    c.Relates ρ Corresponds (env.call f args) (env.call f args')
  get : ∀ ρ k name, c.Relates ρ Found (env.get k name) (env.get k name)
  invoke : ∀ ρ k name args args', ρ.Values args args' →
    c.Relates ρ Found (env.invoke k name args) (env.invoke k name args')

def RespectsFilters (c : Comparison W start) (filters : FilterLookup W) : Prop :=
  ∀ name run, filters name = some run → ∀ ρ args args', ρ.Values args args' →
    c.Relates ρ Corresponds (run args) (run args')

end Comparison

/-! ## what is found in corresponding values -/

namespace Correspondence

variable {start : Heap} {ρ : Correspondence start}

/-- Corresponding fields hold what corresponds. -/
theorem found_get? {fs fs' : Fields Value} (h : List.Forall₂ ρ.Pairs fs fs') (name : String) :
    ρ.Found (fs.get? name) (fs'.get? name) := by
  induction h with
  | nil => exact .none
  | @cons p p' _ _ hp _ ih =>
    obtain ⟨key, v⟩ := p
    obtain ⟨key', v'⟩ := p'
    obtain ⟨rfl, hv⟩ := hp
    rw [Fields.get?, Fields.get?]
    split
    · exact .some hv
    · exact ih

theorem found_getElem? {vs vs' : List Value} (h : ρ.Values vs vs') (index : Nat) :
    ρ.Found vs[index]? vs'[index]? := by
  induction h generalizing index with
  | nil => exact .none
  | cons hv _ ih =>
    cases index with
    | zero => exact .some hv
    | succ index => exact ih index

theorem corresponds_getD {v v' : Option Value} (h : ρ.Found v v') :
    ρ.Corresponds (v.getD .null) (v'.getD .null) := by
  cases h with
  | some hv => exact hv
  | none => exact .null

theorem corresponds_headD {vs vs' : List Value} (h : ρ.Values vs vs') :
    ρ.Corresponds (vs.headD .null) (vs'.headD .null) := by
  cases h with
  | nil => exact .null
  | cons hv _ => exact hv

/-! ## methods -/

theorem findIdx?_strictEquals {vs vs' : List Value} (h : ρ.Values vs vs') {w w' : Value}
    (hw : ρ.Corresponds w w') :
    vs.findIdx? (·.strictEquals w) = vs'.findIdx? (·.strictEquals w') := by
  induction h with
  | nil => rfl
  | cons hv _ ih =>
    rw [List.findIdx?_cons, List.findIdx?_cons, strictEquals_eq hv hw, ih]

theorem corresponds_position (n : Option Nat) :
    ρ.Corresponds (Value.position n) (Value.position n) := by
  cases n with
  | some n => exact .int _
  | none => exact .int _

theorem found_arrayMethod {h h' : Heap} (hh : ρ.Reads h h') {items items' : List Value}
    (hi : ρ.Values items items') (name : String) {args args' : List Value}
    (ha : ρ.Values args args') :
    ρ.Found (Value.arrayMethod h items name args) (Value.arrayMethod h' items' name args') := by
  unfold Value.arrayMethod
  split
  · rw [findIdx?_strictEquals hi (corresponds_headD ha)]
    exact .some (corresponds_position _)
  · split
    · have htexts := map_eq_of_forall₂ (fun _ _ => hh.text) hi
      cases ha with
      | nil =>
        rw [htexts]
        exact .some (.str _)
      | cons hv _ =>
        simp only [htexts, hh.text hv]
        exact .some (.str _)
    · exact .none

theorem found_textMethod {h h' : Heap} (hh : ρ.Reads h h') (s name : String)
    {args args' : List Value} (ha : ρ.Values args args') :
    ρ.Found (Value.textMethod h s name args) (Value.textMethod h' s name args') := by
  unfold Value.textMethod
  split
  · cases ha with
    | nil => exact .some (corresponds_position _)
    | cons hv _ =>
      simp only [hh.text hv]
      exact .some (corresponds_position _)
  · split
    · exact .some (.str _)
    · split
      · exact .some (.str _)
      · exact .none

end Correspondence

/-! ## accesses to corresponding values -/

namespace Value

variable {start : Heap} {c : Comparison W start} {env : Embedding W} (respects : c.Respects env)
include respects

theorem relates_lookup {ρ : Correspondence start} {v v' : Value} (hv : ρ.Corresponds v v')
    (name : String) : c.Relates ρ Found (v.lookup env name) (v'.lookup env name) := by
  -- the correspondence grows while the locals of an overlay are looked up
  induction v generalizing ρ v' with
  | object r =>
    cases hv with
    | object hr =>
      rw [lookup, lookup]
      exact .heap_bind fun h h' hh => .pure (found_get? (hh.fields hr) name)
  | host k =>
    cases hv
    rw [lookup]
    exact respects.get ρ k name
  | overlay i scope locals ihs ihl =>
    cases hv with
    | overlay _ hs hl =>
      rw [lookup, lookup]
      refine .bind (ihl hl) fun ρ' hle a b hab => ?_
      cases hab with
      | some hab => exact .pure (.some hab)
      | none => exact ihs (hs.mono hle)
  | array r =>
    cases hv with
    | array hr =>
      rw [lookup, lookup]
      split
      · refine .heap_bind fun h h' hh => .pure (.some ?_)
        have hlen := (hh.items hr).length_eq
        rw [Array.length_toList, Array.length_toList] at hlen
        rw [hlen]
        exact .int _
      · exact .pure .none
  | str s =>
    cases hv
    rw [lookup]
    refine .pure ?_
    split
    · exact .some (.int _)
    · exact .none
  | _ =>
    cases hv
    exact .pure .none

theorem relates_get {ρ : Correspondence start} {v v' : Value} (hv : ρ.Corresponds v v')
    (name : String) : c.Relates ρ Corresponds (v.get env name) (v'.get env name) := by
  rw [get, get]
  exact .bind (relates_lookup respects hv name) fun ρ' _ a b hab => .pure (corresponds_getD hab)

theorem relates_getKeyed {ρ : Correspondence start} {v v' key key' : Value}
    (hv : ρ.Corresponds v v') (hk : ρ.Corresponds key key') :
    c.Relates ρ Corresponds (v.getKeyed env key) (v'.getKeyed env key') := by
  have hint := asInt?_eq hk
  have hindex : key.asIndex? = key'.asIndex? := by
    rw [asIndex?, asIndex?, hint]
  have hname : c.Relates ρ Corresponds
      (do v.get env ((← Action.heap).text key)) (do v'.get env ((← Action.heap).text key')) := by
    refine .heap_bind fun h h' hh => ?_
    rw [hh.text hk]
    exact relates_get respects hv _
  cases hv with
  | null => exact .pure .null
  | array hr =>
    unfold getKeyed
    rw [← hint, ← hindex]
    cases key.asInt? with
    | none => exact hname
    | some n =>
      refine .heap_bind fun h h' hh => .pure ?_
      cases key.asIndex? with
      | none => exact .null
      | some index =>
        have hitem := found_getElem? (hh.items hr) index
        rw [Array.getElem?_toList, Array.getElem?_toList] at hitem
        exact corresponds_getD hitem
  | str s =>
    unfold getKeyed
    rw [← hint, ← hindex]
    cases key.asInt? with
    | none => exact hname
    | some n =>
      refine .pure ?_
      cases key.asIndex? with
      | none => exact .null
      | some index =>
        show ρ.Corresponds (charAt s index) (charAt s index)
        unfold charAt
        split
        · exact .str _
        · exact .null
  | _ => exact hname

theorem relates_keyed {ρ : Correspondence start} {v v' key key' : Value}
    (hv : ρ.Corresponds v v') (hk : ρ.Corresponds key key') :
    c.Relates ρ Corresponds (v.keyed env key) (v'.keyed env key') := by
  unfold keyed
  rw [isNull_eq hv]
  split
  · exact .pure .null
  · exact relates_getKeyed respects hv hk

theorem relates_call {ρ : Correspondence start} (f : Nat) {args args' : List Value}
    (ha : ρ.Values args args') :
    c.Relates ρ Found (some <$> env.call f args) (some <$> env.call f args') := by
  rw [← bind_pure_comp, ← bind_pure_comp]
  exact .bind (respects.call ρ f args args' ha) fun ρ' _ v v' hv => .pure (.some hv)

theorem relates_callMethod {ρ : Correspondence start} {v v' : Value} (hv : ρ.Corresponds v v')
    (name : String) {args args' : List Value} (ha : ρ.Values args args') :
    c.Relates ρ Found (v.callMethod env name args) (v'.callMethod env name args') := by
  induction v generalizing ρ v' with
  | object r =>
    cases hv with
    | object hr =>
      rw [callMethod, callMethod]
      refine .heap_bind fun h h' hh => ?_
      have hfield := found_get? (hh.fields hr) name
      generalize (h.fields r).get? name = found at hfield ⊢
      generalize (h'.fields _).get? name = found' at hfield ⊢
      cases hfield with
      | none => exact .pure .none
      | some hf =>
        cases hf with
        | function f => exact relates_call respects f ha
        | _ => exact .pure .none
  | host k =>
    cases hv
    rw [callMethod, callMethod]
    exact respects.invoke ρ k name args args' ha
  | overlay i scope locals ihs ihl =>
    cases hv with
    | overlay _ hs hl =>
      rw [callMethod, callMethod]
      refine .bind (relates_lookup respects hl name) fun ρ' hle a b hab => ?_
      have hscope := ihs (hs.mono hle) (mono_all hle ha)
      cases hab with
      | none => exact hscope
      | some hab =>
        cases hab with
        | function f => exact relates_call respects f (mono_all hle ha)
        | _ => exact hscope
  | array r =>
    cases hv with
    | array hr =>
      rw [callMethod, callMethod]
      exact .heap_bind fun h h' hh => .pure (found_arrayMethod hh (hh.items hr) name ha)
  | str s =>
    cases hv
    rw [callMethod, callMethod]
    exact .heap_bind fun h h' hh => .pure (found_textMethod hh s name ha)
  | _ =>
    cases hv
    exact .pure .none

end Value

/-! ## runs that are the same -/

namespace Correspondence

variable {start : Heap}

/-- Every reference answers to itself, whether it was given out or not. -/
def everywhere (start : Heap) : Correspondence start where
  arrays := Eq
  objects := Eq
  arrays_unique := by
    rintro a b c d rfl rfl
    exact Iff.rfl
  objects_unique := by
    rintro a b c d rfl rfl
    exact Iff.rfl
  arrays_start _ _ := rfl
  objects_start _ _ := rfl

theorem corresponds_everywhere (v : Value) : (everywhere start).Corresponds v v := by
  induction v with
  | array r => exact .array rfl
  | object r => exact .object rfl
  | overlay i _ _ ihs ihl => exact .overlay i ihs ihl
  | _ => constructor

theorem eq_of_everywhere {v v' : Value} (h : (everywhere start).Corresponds v v') : v = v' := by
  induction h with
  | array hr => rw [show _ = _ from hr]
  | object hr => rw [show _ = _ from hr]
  | overlay i _ _ ihs ihl => rw [ihs, ihl]
  | _ => rfl

theorem values_everywhere_iff {vs vs' : List Value} :
    (everywhere start).Values vs vs' ↔ vs = vs' := by
  constructor
  · intro h
    induction h with
    | nil => rfl
    | cons hv _ ih => rw [eq_of_everywhere hv, ih]
  · rintro rfl
    exact List.forall₂_same.mpr fun v _ => corresponds_everywhere v

theorem found_everywhere (v : Option Value) : (everywhere start).Found v v := by
  cases v with
  | some v => exact .some (corresponds_everywhere v)
  | none => exact .none

theorem eq_of_found_everywhere {v v' : Option Value} (h : (everywhere start).Found v v') :
    v = v' := by
  cases h with
  | some hv => rw [eq_of_everywhere hv]
  | none => rfl

theorem reads_everywhere (h : Heap) : (everywhere start).Reads h h := by
  refine ⟨?_, ?_, ?_⟩
  · rintro r _ rfl
    exact values_everywhere_iff.mpr rfl
  · rintro r _ rfl
    exact List.forall₂_same.mpr fun p _ => ⟨rfl, corresponds_everywhere p.2⟩
  · intro v v' hv
    rw [eq_of_everywhere hv]

end Correspondence

namespace Comparison

variable {base : Heap} {I : W → Prop} {E : Store W → Prop}

/-- What holds of the store after an action, by whether it has succeeded. -/
def After (I E : Store W → Prop) : EStateM.Result EvalError (Store W) α → Prop
  | .ok _ t => I t
  | .error _ t => E t

theorem after_same_iff {I : Store W → Prop} {r : EStateM.Result EvalError (Store W) α} :
    After I I r ↔ I (stateAfter r) := by
  cases r <;> rfl

/-- The store of a run that keeps a heap, and some fact about the embedding program. -/
def Kept (base : Heap) (I : W → Prop) (s : Store W) : Prop := base.Extends s.heap ∧ I s.world

/-- Two runs that are one and the same. All that was in a heap is kept. -/
def alike (base : Heap) (I : W → Prop) (E : Store W → Prop) (hE : ∀ s, Kept base I s → E s) :
    Comparison W base where
  Stores ρ s s' := ρ = everywhere base ∧ s = s' ∧ Kept base I s
  lenient := False
  Failed t t' := t = t' ∧ E t
  reads := by
    rintro ρ s s' ⟨rfl, rfl, _⟩
    exact reads_everywhere s.heap
  failed := by
    rintro ρ s s' ⟨_, rfl, hs⟩
    exact ⟨rfl, hE s hs⟩
  newArray := by
    rintro ρ s s' items items' ⟨rfl, rfl, hs⟩ hitems
    obtain rfl := values_everywhere_iff.mp hitems
    exact ⟨_, .refl _, rfl, rfl, rfl, hs.1.trans (s.heap.extends_newArray _), hs.2⟩
  newObject := by
    rintro ρ s s' fields fields' ⟨rfl, rfl, hs⟩ hfields
    obtain rfl : fields = fields' := by
      induction hfields with
      | nil => rfl
      | cons hp _ ih => rw [Prod.ext hp.1 (eq_of_everywhere hp.2), ih]
    exact ⟨_, .refl _, rfl, rfl, rfl, hs.1.trans (s.heap.extends_newObject _), hs.2⟩

section
variable {hE : ∀ s, Kept base I s → E s}

theorem relates_alike {ρ : Correspondence base} {R : Correspondence base → α → α → Prop}
    (hR : ∀ a, R (everywhere base) a a) {x : Action W α}
    (hx : ∀ s, Kept base I s → After (Kept base I) E (x s)) :
    (alike base I E hE).Relates ρ R x x := by
  rintro s s' ⟨rfl, rfl, hs⟩
  have hafter := hx s hs
  cases hxs : x s with
  | ok a t =>
    rw [hxs] at hafter
    exact ⟨_, a, t, rfl, .refl _, ⟨rfl, rfl, hafter⟩, hR a⟩
  | error e t =>
    rw [hxs] at hafter
    exact .inr ⟨t, rfl, rfl, hafter⟩

/-- A function that keeps the heap answers alike where it gets the same arguments. -/
theorem relates_alike_args {ρ : Correspondence base} {R : Correspondence base → α → α → Prop}
    (hR : ∀ a, R (everywhere base) a a) {f : List Value → Action W α}
    (hf : ∀ args s, Kept base I s → After (Kept base I) E (f args s)) {args args' : List Value}
    (ha : ρ.Values args args') : (alike base I E hE).Relates ρ R (f args) (f args') := by
  rintro s s' ⟨rfl, hs⟩
  obtain rfl := values_everywhere_iff.mp ha
  exact relates_alike hR (hf args) s s' ⟨rfl, hs⟩

theorem eq_of_relates {R : Correspondence base → α → α → Prop}
    (hR : ∀ a b, R (everywhere base) a b → a = b) {x y : Action W α}
    (h : (alike base I E hE).Relates (everywhere base) R x y) {s : Store W} (hs : Kept base I s) :
    x s = y s ∧ After (Kept base I) E (x s) := by
  have hrun := h s s ⟨rfl, rfl, hs⟩
  cases hxs : x s with
  | ok a t =>
    rw [hxs] at hrun
    obtain ⟨_, b, _, hy, _, ⟨rfl, rfl, ht⟩, hab⟩ := hrun
    rw [hy, hR a b hab]
    exact ⟨rfl, ht⟩
  | error e t =>
    rw [hxs] at hrun
    obtain hfalse | ⟨_, hy, rfl, ht⟩ := hrun
    · exact absurd hfalse id
    · rw [hy]
      exact ⟨rfl, ht⟩

end

/-! ## actions that keep the heap -/

/-- Two runs that are the same up to an error. -/
def keeping (W : Type) (base : Heap) : Comparison W base :=
  alike base (fun _ => True) (fun _ => True) fun _ _ => trivial

theorem after_of_keeps {x : Action W α} (hx : Keeps x) (s : Store W)
    (hs : Kept base (fun _ => True) s) :
    After (Kept base fun _ => True) (fun _ => True) (x s) := by
  cases hxs : x s with
  | ok a t => exact ⟨hs.1.trans (hx s a t hxs), trivial⟩
  | error e t => trivial

theorem keeps_of_relates {R : ∀ base : Heap, Correspondence base → α → α → Prop}
    (hR : ∀ base a b, R base (everywhere base) a b → a = b) {x : Action W α}
    (h : ∀ base, (keeping W base).Relates (everywhere base) (R base) x x) : Keeps x := by
  intro s a t hxs
  have hafter := (eq_of_relates (hR s.heap) (h s.heap) (s := s) ⟨.refl _, trivial⟩).2
  rw [hxs] at hafter
  exact hafter.1

end Comparison

/-- The functions and host objects leave existing values as they are. -/
structure Embedding.Keeping (env : Embedding W) : Prop where
  call : ∀ f args, Keeps (env.call f args)
  get : ∀ k name, Keeps (env.get k name)
  invoke : ∀ k name args, Keeps (env.invoke k name args)

def FilterLookup.Keeping (filters : FilterLookup W) : Prop :=
  ∀ name run, filters name = some run → ∀ args, Keeps (run args)

namespace Comparison

variable {base : Heap}

theorem respects_keeping {env : Embedding W} (keeps : env.Keeping) :
    (keeping W base).Respects env where
  call _ f _ _ := relates_alike_args corresponds_everywhere fun args =>
    after_of_keeps (keeps.call f args)
  get _ k name := relates_alike found_everywhere (after_of_keeps (keeps.get k name))
  invoke _ k name _ _ := relates_alike_args found_everywhere fun args =>
    after_of_keeps (keeps.invoke k name args)

theorem respectsFilters_keeping {filters : FilterLookup W} (keeps : filters.Keeping) :
    (keeping W base).RespectsFilters filters :=
  fun name run hrun _ _ _ => relates_alike_args corresponds_everywhere fun args =>
    after_of_keeps (keeps name run hrun args)

end Comparison

end TemplateExpr
