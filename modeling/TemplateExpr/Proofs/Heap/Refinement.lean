import TemplateExpr.Filter.Builtin
import TemplateExpr.Proofs.Heap.Comparison

/-!
# Actions on corresponding heaps

* `Correspondence.Refines`     an action that succeeds where another does, with what corresponds;
* `Steady`                     a function that keeps the heap and answers by its arguments alone;
* `Embedding.Quiet`, `FilterLookup.Quiet`    embedding programs made of such functions;
* `Value.refines_get`, `Value.refines_keyed`, `Value.refines_callMethod`   the accesses.
-/

namespace TemplateExpr

variable {W α β γ δ : Type}

/-! ## actions that succeed where another does -/

namespace Correspondence

variable {start : Heap}

/-- Wherever `x` succeeds on one of two corresponding heaps, `y` succeeds on the other. The heaps
still correspond afterwards, and the results are related. -/
def Refines (ρ : Correspondence start) (R : Correspondence start → α → β → Prop) (x : Action W α)
    (y : Action W β) : Prop :=
  ∀ s s' a t, ρ.Heaps s.heap s'.heap → x s = .ok a t →
    ∃ ρ' b t', y s' = .ok b t' ∧ Le ρ ρ' ∧ ρ'.Heaps t.heap t'.heap ∧ R ρ' a b

/-- The comparison of runs on corresponding heaps, up to the first error. -/
def refining (W : Type) (start : Heap) : Comparison W start where
  Stores ρ s s' := ρ.Heaps s.heap s'.heap
  lenient := True
  Failed _ _ := True
  reads hh := hh.reads
  failed _ := trivial
  newArray {ρ} _ _ _ _ hh hitems :=
    ⟨ρ.withArray hh, ρ.le_withArray hh, .inr ⟨rfl, rfl⟩, heaps_newArray hh hitems⟩
  newObject {ρ} _ _ _ _ hh hfields :=
    ⟨ρ.withObject hh, ρ.le_withObject hh, .inr ⟨rfl, rfl⟩, heaps_newObject hh hfields⟩

variable {ρ : Correspondence start} {R : Correspondence start → α → β → Prop}
  {S : Correspondence start → γ → δ → Prop}

theorem refines_iff {x : Action W α} {y : Action W β} :
    ρ.Refines R x y ↔ (refining W start).Relates ρ R x y := by
  constructor
  · intro h s s' hh
    cases hxs : x s with
    | ok a t => exact h s s' a t hh hxs
    | error e t => exact .inl trivial
  · intro h s s' a t hh hxs
    have hrun := h s s' hh
    rw [hxs] at hrun
    exact hrun

namespace Refines

theorem pure {a : α} {b : β} (h : R ρ a b) :
    ρ.Refines R (Pure.pure a : Action W α) (Pure.pure b : Action W β) :=
  refines_iff.mpr (.pure h)

theorem fail (e : EvalError) (y : Action W β) : ρ.Refines R (Action.fail e) y := by
  rintro s s' a t _ ⟨⟩

theorem bind {x : Action W α} {y : Action W β} {k : α → Action W γ} {k' : β → Action W δ}
    (hx : ρ.Refines R x y)
    (hk : ∀ ρ', Le ρ ρ' → ∀ a b, R ρ' a b → ρ'.Refines S (k a) (k' b)) :
    ρ.Refines S (x >>= k) (y >>= k') :=
  refines_iff.mpr (.bind (refines_iff.mp hx) fun ρ' hle a b hab =>
    refines_iff.mp (hk ρ' hle a b hab))

/-- Both look at their heaps. -/
theorem heap_bind {k : Heap → Action W α} {k' : Heap → Action W β}
    (hk : ∀ h h', ρ.Heaps h h' → ρ.Refines R (k h) (k' h')) :
    ρ.Refines R (Action.heap >>= k) (Action.heap >>= k') := by
  intro s s' a t hh h
  exact hk s.heap s'.heap hh s s' a t hh h

/-- What only the one does is not missed if it keeps the heap. -/
theorem skip {x : Action W γ} {k : γ → Action W α} {y : Action W β} (hx : Keeps x)
    (hk : ∀ c, ρ.Refines R (k c) y) : ρ.Refines R (x >>= k) y := by
  intro s s' a t hh h
  obtain ⟨c, s₁, hc, ha⟩ := bind_eq_ok h
  exact hk c s₁ s' a t (hh.extend_left (hx s c s₁ hc)) ha

theorem ofExcept {x y : Except EvalError Value} (h : ρ.Computes x y) :
    ρ.Refines (W := W) Corresponds (Action.ofExcept x) (Action.ofExcept y) := by
  cases x with
  | error e => exact .fail e _
  | ok v =>
    obtain ⟨v', rfl, hv⟩ := h v rfl
    exact .pure hv

theorem newArray {items items' : List Value} (h : ρ.Values items items') :
    ρ.Refines (W := W) Corresponds (Action.newArray items.toArray)
      (Action.newArray items'.toArray) :=
  refines_iff.mpr (.newArray h)

theorem newObject {fields fields' : Fields Value} (h : List.Forall₂ ρ.Pairs fields fields') :
    ρ.Refines (W := W) Corresponds (Action.newObject fields) (Action.newObject fields') :=
  refines_iff.mpr (.newObject h)

end Refines

end Correspondence

/-! ## functions of the embedding program -/

/-- The function leaves existing values as they are. Its answer depends only on its arguments and
what they hold: on corresponding ones it gives a corresponding answer, whatever the state of the
embedding program, and whatever was made or called in between. -/
structure Steady (start : Heap) (R : Correspondence start → α → α → Prop)
    (f : List Value → Action W α) : Prop where
  keeps : ∀ args, Keeps (f args)
  answers : ∀ (ρ : Correspondence start) args args', ρ.Values args args' →
    ρ.Refines R (f args) (f args')

/-- The functions and host objects are steady. -/
structure Embedding.Quiet (start : Heap) (env : Embedding W) : Prop where
  call : ∀ f, Steady start Correspondence.Corresponds (env.call f)
  get : ∀ k name, Steady start Correspondence.Found fun _ => env.get k name
  invoke : ∀ k name, Steady start Correspondence.Found (env.invoke k name)

def FilterLookup.Quiet (start : Heap) (filters : FilterLookup W) : Prop :=
  ∀ name run, filters name = some run → Steady start Correspondence.Corresponds run

theorem Embedding.quiet_none (start : Heap) : (Embedding.none : Embedding W).Quiet start where
  call _ := ⟨fun _ => .pure _, fun _ _ _ _ => .pure .null⟩
  get _ _ := ⟨fun _ => .pure _, fun _ _ _ _ => .pure .none⟩
  invoke _ _ := ⟨fun _ => .pure _, fun _ _ _ _ => .pure .none⟩

/-! ## steady filters -/

namespace Filter

open Correspondence

variable {start : Heap}

theorem values_window {ρ : Correspondence start} {vs vs' : List Value} (h : ρ.Values vs vs')
    (limit : Int) : ρ.Values (window limit vs) (window limit vs') := by
  unfold window
  split
  · exact List.forall₂_take _ h
  · rw [h.length_eq]
    exact List.forall₂_drop _ h

theorem keeps_limitTo (args : List Value) : Keeps (limitTo args : Action W Value) := by
  unfold limitTo
  dsimp only
  split
  · exact .pure _
  · split
    · exact .bind .heap fun _ => .newArray _
    · exact .pure _
    · exact .pure _

/-- Limiting an array makes a new one with the first or last of its items. -/
theorem steady_limitTo : Steady (W := W) start Corresponds limitTo := by
  refine ⟨keeps_limitTo, fun ρ args args' ha => ?_⟩
  have hinput := corresponds_headD ha
  have hlimit : args[1]?.bind Value.asInt? = args'[1]?.bind Value.asInt? := by
    have hfound := found_getElem? ha 1
    generalize args[1]? = v at hfound ⊢
    generalize args'[1]? = v' at hfound ⊢
    cases hfound with
    | some hv => exact asInt?_eq hv
    | none => rfl
  unfold limitTo
  dsimp only
  rw [hlimit]
  generalize args.headD .null = input at hinput ⊢
  generalize args'.headD .null = input' at hinput ⊢
  cases args'[1]?.bind Value.asInt? with
  | none => exact .pure hinput
  | some limit =>
    cases hinput with
    | array hr =>
      exact .heap_bind fun h h' hh => .newArray (values_window (hh.items hr) _)
    | str s => exact .pure (.str _)
    | overlay i hs hl => exact .pure (.overlay i hs hl)
    | object hr => exact .pure (.object hr)
    | null => exact .pure .null
    | bool b => exact .pure (.bool b)
    | int n => exact .pure (.int n)
    | float x => exact .pure (.float x)
    | function f => exact .pure (.function f)
    | host k => exact .pure (.host k)

end Filter

/-! ## accesses keep the heap -/

section
variable {start : Heap} {env : Embedding W} (quiet : env.Quiet start)
include quiet

theorem Embedding.Quiet.keeping : env.Keeping where
  call f := (quiet.call f).keeps
  get k name := (quiet.get k name).keeps []
  invoke k name := (quiet.invoke k name).keeps

open Correspondence Comparison

theorem Correspondence.respects_refining : (refining W start).Respects env where
  call ρ f args args' ha := refines_iff.mp ((quiet.call f).answers ρ args args' ha)
  get ρ k name := refines_iff.mp ((quiet.get k name).answers ρ [] [] .nil)
  invoke ρ k name args args' ha := refines_iff.mp ((quiet.invoke k name).answers ρ args args' ha)

namespace Value

theorem keeps_get (v : Value) (name : String) : Keeps (v.get env name) :=
  keeps_of_relates (fun _ _ _ => eq_of_everywhere) fun _ =>
    relates_get (respects_keeping quiet.keeping) (corresponds_everywhere v) name

theorem keeps_keyed (v key : Value) : Keeps (v.keyed env key) :=
  keeps_of_relates (fun _ _ _ => eq_of_everywhere) fun _ =>
    relates_keyed (respects_keeping quiet.keeping) (corresponds_everywhere v)
      (corresponds_everywhere key)

theorem keeps_callMethod (v : Value) (name : String) (args : List Value) :
    Keeps (v.callMethod env name args) :=
  keeps_of_relates (fun _ _ _ => eq_of_found_everywhere) fun _ =>
    relates_callMethod (respects_keeping quiet.keeping) (corresponds_everywhere v) name
      (values_everywhere_iff.mpr rfl)

/-! ## accesses to corresponding values -/

theorem refines_get {ρ : Correspondence start} {v v' : Value} (hv : ρ.Corresponds v v')
    (name : String) : ρ.Refines Corresponds (v.get env name) (v'.get env name) :=
  refines_iff.mpr (relates_get (respects_refining quiet) hv name)

theorem refines_keyed {ρ : Correspondence start} {v v' key key' : Value}
    (hv : ρ.Corresponds v v') (hk : ρ.Corresponds key key') :
    ρ.Refines Corresponds (v.keyed env key) (v'.keyed env key') :=
  refines_iff.mpr (relates_keyed (respects_refining quiet) hv hk)

theorem refines_callMethod {ρ : Correspondence start} {v v' : Value} (hv : ρ.Corresponds v v')
    (name : String) {args args' : List Value} (ha : ρ.Values args args') :
    ρ.Refines Found (v.callMethod env name args) (v'.callMethod env name args') :=
  refines_iff.mpr (relates_callMethod (respects_refining quiet) hv name ha)

end Value

end

end TemplateExpr
