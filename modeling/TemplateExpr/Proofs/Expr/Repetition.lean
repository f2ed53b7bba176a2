import TemplateExpr.Proofs.Expr.Names

/-!
# Evaluating again

Evaluating a tree without assignments leaves what was in the heap as it was, and doing it again
gives the same: the same error, the same value of before, or a fresh one with the same contents up
to what each evaluation has made.

* `Correspondence.Grows`       what newly answers to each other was made in both runs;
* `Correspondence.Repeats`     actions with the same outcome, up to what they make;
* `Repeatable`                 a function that changes no existing value and answers in one way;
* `Embedding.Repeatable`, `FilterLookup.Repeatable`   embedding programs made of such functions;
* `Expr.evaluate_again`        evaluating without assignments is pure and repeatable.
-/

namespace TemplateExpr

variable {W α β : Type}

/-! ## outcomes of two runs -/

namespace Correspondence

variable {start : Heap}

/-- More references answer to each other. Those that newly do were given out in neither heap. -/
structure Grows (ρ ρ' : Correspondence start) (h h' : Heap) : Prop where
  le : Le ρ ρ'
  arrays : ∀ {r r'}, ρ'.arrays r r' → ρ.arrays r r' ∨ h.arrays.size ≤ r ∧ h'.arrays.size ≤ r'
  objects : ∀ {r r'}, ρ'.objects r r' → ρ.objects r r' ∨ h.objects.size ≤ r ∧ h'.objects.size ≤ r'

theorem Grows.refl (ρ : Correspondence start) (h h' : Heap) : ρ.Grows ρ h h' :=
  ⟨.refl ρ, .inl, .inl⟩

theorem Grows.trans {ρ₁ ρ₂ ρ₃ : Correspondence start} {h h' t t' : Heap}
    (h₁ : ρ₁.Grows ρ₂ h h') (h₂ : ρ₂.Grows ρ₃ t t') (ht : h.Extends t) (ht' : h'.Extends t') :
    ρ₁.Grows ρ₃ h h' := by
  refine ⟨h₁.le.trans h₂.le, fun hr => ?_, fun hr => ?_⟩
  · rcases h₂.arrays hr with hr | ⟨hlt, hlt'⟩
    · exact h₁.arrays hr
    · exact .inr ⟨Nat.le_trans ht.arrays_le hlt, Nat.le_trans ht'.arrays_le hlt'⟩
  · rcases h₂.objects hr with hr | ⟨hlt, hlt'⟩
    · exact h₁.objects hr
    · exact .inr ⟨Nat.le_trans ht.objects_le hlt, Nat.le_trans ht'.objects_le hlt'⟩

theorem grows_withArray {ρ : Correspondence start} {h h' : Heap} (hh : ρ.Heaps h h') :
    ρ.Grows (ρ.withArray hh) h h' := by
  refine ⟨ρ.le_withArray hh, ?_, .inl⟩
  rintro r r' (hr | ⟨rfl, rfl⟩)
  · exact .inl hr
  · exact .inr ⟨Nat.le_refl _, Nat.le_refl _⟩

theorem grows_withObject {ρ : Correspondence start} {h h' : Heap} (hh : ρ.Heaps h h') :
    ρ.Grows (ρ.withObject hh) h h' := by
  refine ⟨ρ.le_withObject hh, .inl, ?_⟩
  rintro r r' (hr | ⟨rfl, rfl⟩)
  · exact .inl hr
  · exact .inr ⟨Nat.le_refl _, Nat.le_refl _⟩

/-- Two runs from these heaps have failed with the same error, or have succeeded with related
results on corresponding heaps. -/
def SameOutcome (ρ : Correspondence start) (h h' : Heap)
    (R : Correspondence start → α → β → Prop) :
    EStateM.Result EvalError (Store W) α → EStateM.Result EvalError (Store W) β → Prop
  | .ok a t, .ok b t' => ∃ ρ', ρ.Grows ρ' h h' ∧ ρ'.Heaps t.heap t'.heap ∧ R ρ' a b
  | .error e _, .error e' _ => e = e'
  | _, _ => False

/-- The outcome is the same on corresponding heaps, wherever the embedding program is in one of
these states. -/
def Repeats (ρ : Correspondence start) (I : W → Prop) (R : Correspondence start → α → β → Prop)
    (x : Action W α) (y : Action W β) : Prop :=
  ∀ s s' : Store W, ρ.Heaps s.heap s'.heap → I s.world → I s'.world →
    ρ.SameOutcome s.heap s'.heap R (x s) (y s')

end Correspondence

open Correspondence Comparison

/-- The action leaves existing values as they are, and the embedding program in one of these states,
whether it succeeds or fails. -/
def Preserves (I : W → Prop) (x : Action W α) : Prop :=
  ∀ s, I s.world → Kept s.heap I (stateAfter (x s))

/-- The function preserves existing values, and its outcome depends on nothing but its arguments and
what they hold. -/
structure Repeatable (start : Heap) (I : W → Prop) (R : Correspondence start → α → α → Prop)
    (f : List Value → Action W α) : Prop where
  preserves : ∀ args, Preserves I (f args)
  answers : ∀ (ρ : Correspondence start) args args', ρ.Values args args' →
    ρ.Repeats I R (f args) (f args')

structure Embedding.Repeatable (start : Heap) (I : W → Prop) (env : Embedding W) : Prop where
  call : ∀ f, TemplateExpr.Repeatable start I Corresponds (env.call f)
  get : ∀ k name, TemplateExpr.Repeatable start I Found fun _ => env.get k name
  invoke : ∀ k name, TemplateExpr.Repeatable start I Found (env.invoke k name)

def FilterLookup.Repeatable (start : Heap) (I : W → Prop) (filters : FilterLookup W) : Prop :=
  ∀ name run, filters name = some run → TemplateExpr.Repeatable start I Corresponds run

/-! ## existing values are preserved -/

variable {start : Heap} {I : W → Prop}

theorem after_of_preserves {x : Action W α} (hx : Preserves I x) {base : Heap} (s : Store W)
    (hs : Kept base I s) : After (Kept base I) (Kept base I) (x s) := by
  obtain ⟨hext, hI⟩ := hx s hs.2
  exact after_same_iff.mpr ⟨hs.1.trans hext, hI⟩

namespace Comparison

/-- Two runs that are the same, errors included. -/
def preserving (I : W → Prop) (base : Heap) : Comparison W base :=
  alike base I (Kept base I) fun _ => id

variable {base : Heap} {env : Embedding W} {filters : FilterLookup W}

theorem respects_preserving (repeatable : env.Repeatable start I) :
    (preserving I base).Respects env where
  call _ f _ _ := relates_alike_args corresponds_everywhere fun args =>
    after_of_preserves ((repeatable.call f).preserves args)
  get _ k name := relates_alike found_everywhere
    (after_of_preserves ((repeatable.get k name).preserves []))
  invoke _ k name _ _ := relates_alike_args found_everywhere fun args =>
    after_of_preserves ((repeatable.invoke k name).preserves args)

theorem respectsFilters_preserving (repeatable : filters.Repeatable start I) :
    (preserving I base).RespectsFilters filters :=
  fun name run hrun _ _ _ => relates_alike_args corresponds_everywhere fun args =>
    after_of_preserves ((repeatable name run hrun).preserves args)

end Comparison

namespace Expr

variable {env : Embedding W} {filters : FilterLookup W} {scope : Value}

theorem preserves_evaluate (repeatable : env.Repeatable start I)
    (repeatableFilters : filters.Repeatable start I) {e : Expr}
    (he : ∀ target value, ¬ Within (assign target value) e) :
    Preserves I (e.evaluate env filters scope) := by
  intro s hI
  have hrun : (preserving I s.heap).Relates (everywhere s.heap) Corresponds
      (e.evaluate env filters scope) (e.evaluate env filters scope) :=
    relates_evaluate (respects_preserving repeatable)
      (respectsFilters_preserving repeatableFilters) (corresponds_everywhere scope)
      (fun v _ => corresponds_everywhere v) he
  exact after_same_iff.mp (eq_of_relates (fun _ _ => eq_of_everywhere) hrun ⟨.refl _, hI⟩).2

theorem preserves_evaluateAll {es : List Expr}
    (hes : ∀ e ∈ es, Preserves I (e.evaluate env filters scope)) {s t : Store W} {vs : List Value}
    (hI : I s.world) (hrun : evaluateAll env filters scope es s = .ok vs t) :
    s.heap.Extends t.heap := by
  induction es generalizing s vs with
  | nil =>
    rw [evaluateAll] at hrun
    cases hrun
    exact .refl _
  | cons e es ih =>
    rw [evaluateAll] at hrun
    obtain ⟨v, s₁, hv, hrest⟩ := bind_eq_ok hrun
    obtain ⟨ws, s₂, hws, hpure⟩ := bind_eq_ok hrest
    cases hpure
    have hfirst := hes e List.mem_cons_self s hI
    rw [hv] at hfirst
    exact hfirst.1.trans (ih (fun e' he' => hes e' (List.mem_cons_of_mem e he')) hfirst.2 hws)

end Expr

/-! ## the outcome is the same -/

namespace Comparison

/-- Two runs from these heaps, where these references answered to each other. -/
def repeating (I : W → Prop) (ρ₀ : Correspondence start) (h h' : Heap) : Comparison W start where
  Stores ρ s s' := ρ.Heaps s.heap s'.heap ∧ ρ₀.Grows ρ h h' ∧ Kept h I s ∧ Kept h' I s'
  lenient := False
  Failed _ _ := True
  reads hs := hs.1.reads
  failed _ := trivial
  newArray := by
    rintro ρ s s' items items' ⟨hh, hgrows, hs, hs'⟩ hitems
    refine ⟨ρ.withArray hh, ρ.le_withArray hh, .inr ⟨rfl, rfl⟩, heaps_newArray hh hitems, ?_, ?_, ?_⟩
    · exact hgrows.trans (grows_withArray hh) hs.1 hs'.1
    · exact ⟨hs.1.trans (s.heap.extends_newArray _), hs.2⟩
    · exact ⟨hs'.1.trans (s'.heap.extends_newArray _), hs'.2⟩
  newObject := by
    rintro ρ s s' fields fields' ⟨hh, hgrows, hs, hs'⟩ hfields
    refine ⟨ρ.withObject hh, ρ.le_withObject hh, .inr ⟨rfl, rfl⟩, heaps_newObject hh hfields,
      ?_, ?_, ?_⟩
    · exact hgrows.trans (grows_withObject hh) hs.1 hs'.1
    · exact ⟨hs.1.trans (s.heap.extends_newObject _), hs.2⟩
    · exact ⟨hs'.1.trans (s'.heap.extends_newObject _), hs'.2⟩

variable {ρ₀ ρ : Correspondence start} {h h' : Heap}

theorem relates_repeating {R : Correspondence start → α → α → Prop} {x y : Action W α}
    (hx : Preserves I x) (hy : Preserves I y) (hxy : ρ.Repeats I R x y) :
    (repeating I ρ₀ h h').Relates ρ R x y := by
  rintro s s' ⟨hh, hgrows, hs, hs'⟩
  -- what the two make from here on is also new to the heaps that the runs have started from
  have hkept := hx s hs.2
  have hkept' := hy s' hs'.2
  have hsame := hxy s s' hh hs.2 hs'.2
  cases hxs : x s with
  | ok a t =>
    cases hys : y s' with
    | ok b t' =>
      rw [hxs] at hkept hsame
      rw [hys] at hkept' hsame
      obtain ⟨ρ', hgrows', hh', hab⟩ := hsame
      refine ⟨ρ', b, t', rfl, hgrows'.le, ⟨hh', hgrows.trans hgrows' hs.1 hs'.1, ?_, ?_⟩, hab⟩
      · exact ⟨hs.1.trans hkept.1, hkept.2⟩
      · exact ⟨hs'.1.trans hkept'.1, hkept'.2⟩
    | error e t' =>
      rw [hxs, hys] at hsame
      exact absurd hsame id
  | error e t =>
    cases hys : y s' with
    | ok b t' =>
      rw [hxs, hys] at hsame
      exact absurd hsame id
    | error e' t' =>
      rw [hxs, hys] at hsame
      exact .inr ⟨t', by rw [show e = e' from hsame], trivial⟩

theorem sameOutcome_of_relates {R : Correspondence start → α → α → Prop} {x y : Action W α}
    {s s' : Store W} (hxy : (repeating I ρ s.heap s'.heap).Relates ρ R x y)
    (hh : ρ.Heaps s.heap s'.heap) (hI : I s.world) (hI' : I s'.world) :
    ρ.SameOutcome s.heap s'.heap R (x s) (y s') := by
  have hrun := hxy s s' ⟨hh, .refl ρ _ _, ⟨.refl _, hI⟩, ⟨.refl _, hI'⟩⟩
  cases hxs : x s with
  | ok a t =>
    rw [hxs] at hrun
    obtain ⟨ρ', b, t', hys, _, ⟨hh', hgrows, _, _⟩, hab⟩ := hrun
    rw [hys]
    exact ⟨ρ', hgrows, hh', hab⟩
  | error e t =>
    rw [hxs] at hrun
    obtain hfalse | ⟨t', hys, _⟩ := hrun
    · exact absurd hfalse id
    · rw [hys]
      exact rfl

theorem relates_repeatable {R : Correspondence start → α → α → Prop} {f : List Value → Action W α}
    (hf : Repeatable start I R f) {args args' : List Value} (ha : ρ.Values args args') :
    (repeating I ρ₀ h h').Relates ρ R (f args) (f args') :=
  relates_repeating (hf.preserves args) (hf.preserves args') (hf.answers ρ args args' ha)

variable {env : Embedding W} {filters : FilterLookup W}

theorem respects_repeating (repeatable : env.Repeatable start I) :
    (repeating I ρ₀ h h').Respects env where
  call _ f _ _ ha := relates_repeatable (repeatable.call f) ha
  get ρ k name := relates_repeatable (repeatable.get k name) (show ρ.Values [] [] from .nil)
  invoke _ k name _ _ ha := relates_repeatable (repeatable.invoke k name) ha

theorem respectsFilters_repeating (repeatable : filters.Repeatable start I) :
    (repeating I ρ₀ h h').RespectsFilters filters :=
  fun name run hrun _ _ _ ha => relates_repeatable (repeatable name run hrun) ha

end Comparison

namespace Correspondence

theorem SameOutcome.imp {ρ : Correspondence start} {h h' : Heap}
    {R S : Correspondence start → α → β → Prop} {r : EStateM.Result EvalError (Store W) α}
    {r' : EStateM.Result EvalError (Store W) β} (hsame : ρ.SameOutcome h h' R r r')
    (hRS : ∀ ρ' a b, ρ.Grows ρ' h h' → R ρ' a b → S ρ' a b) : ρ.SameOutcome h h' S r r' := by
  cases r with
  | ok a t =>
    cases r' with
    | ok b t' =>
      obtain ⟨ρ', hgrows, hh, hab⟩ := hsame
      exact ⟨ρ', hgrows, hh, hRS ρ' a b hgrows hab⟩
    | error e t' => exact absurd hsame id
  | error e t =>
    cases r' with
    | ok b t' => exact absurd hsame id
    | error e' t' => exact hsame

/-- What was not there before the one run answers to what was not there before the other. -/
theorem not_has_of_grows {ρ : Correspondence start} {h' : Heap}
    (hgrows : (atStart start).Grows ρ start h') {v v' : Value} (hv : ρ.Corresponds v v')
    (hnew : ¬ start.Has v) : ¬ h'.Has v' := by
  induction hv with
  | array hr =>
    rcases hgrows.arrays hr with ⟨_, hlt⟩ | ⟨_, hle⟩
    · exact absurd hlt hnew
    · exact Nat.not_lt.mpr hle
  | object hr =>
    rcases hgrows.objects hr with ⟨_, hlt⟩ | ⟨_, hle⟩
    · exact absurd hlt hnew
    · exact Nat.not_lt.mpr hle
  | @overlay i scope scope' locals locals' _ _ ihs ihl =>
    rintro ⟨hscope, hlocals⟩
    by_cases hold : start.Has scope
    · exact ihl (fun hold' => hnew ⟨hold, hold'⟩) hlocals
    · exact ihs hold hscope
  | _ => exact absurd trivial hnew

end Correspondence

namespace Expr

variable {env : Embedding W} {filters : FilterLookup W} {scope : Value}

/-- On corresponding heaps the evaluations of a tree have the same outcome. -/
theorem repeats_evaluate (repeatable : env.Repeatable start I)
    (repeatableFilters : filters.Repeatable start I) (hscope : start.Has scope) {e : Expr}
    (hliterals : ∀ v, Within (literal v) e → start.Has v)
    (he : ∀ target value, ¬ Within (assign target value) e) (ρ : Correspondence start) :
    ρ.Repeats I Corresponds (e.evaluate env filters scope) (e.evaluate env filters scope) := by
  intro s s' hh hI hI'
  refine sameOutcome_of_relates ?_ hh hI hI'
  exact relates_evaluate (respects_repeating repeatable)
    (respectsFilters_repeating repeatableFilters) (corresponds_self hscope)
    (fun v hv => corresponds_self (hliterals v hv)) he

/-! ## literals are fresh -/

section
variable {s t : Store W} {v : Value} (hI : I s.world)
include hI

theorem array_is_fresh {es : List Expr}
    (hes : ∀ e ∈ es, Preserves I (e.evaluate env filters scope))
    (hrun : (array es).evaluate env filters scope s = .ok v t) :
    ∃ r, v = .array r ∧ ¬ s.heap.Has v ∧ t.heap.Has v := by
  rw [evaluate] at hrun
  obtain ⟨vs, s₁, hvs, hnew⟩ := bind_eq_ok hrun
  have hext := preserves_evaluateAll hes hI hvs
  cases hnew
  refine ⟨_, rfl, Nat.not_lt.mpr hext.arrays_le, ?_⟩
  show s₁.heap.arrays.size < (s₁.heap.arrays.push _).size
  rw [Array.size_push]
  omega

theorem object_is_fresh {keys : List String} {es : List Expr}
    (hes : ∀ e ∈ es, Preserves I (e.evaluate env filters scope))
    (hrun : (object keys es).evaluate env filters scope s = .ok v t) :
    ∃ r, v = .object r ∧ ¬ s.heap.Has v ∧ t.heap.Has v := by
  rw [evaluate] at hrun
  obtain ⟨vs, s₁, hvs, hnew⟩ := bind_eq_ok hrun
  have hext := preserves_evaluateAll hes hI hvs
  cases hnew
  refine ⟨_, rfl, Nat.not_lt.mpr hext.objects_le, ?_⟩
  show s₁.heap.objects.size < (s₁.heap.objects.push _).size
  rw [Array.size_push]
  omega

end

/-- **Evaluating a tree without assignments is pure and repeatable**, where the functions, filters
and host objects are. All that was in the heap is as before, after a success and after an error. An
evaluation on any later heap, such as the one that the first has left, ends with the same error or
with a corresponding value: the same one if it was there before the first evaluation, and else one
that the second has made, with the same contents up to what each of the two has made. The array or
object of a literal is always a new one. -/
theorem evaluate_again {s : Store W} (repeatable : env.Repeatable s.heap I)
    (repeatableFilters : filters.Repeatable s.heap I) (closed : s.heap.Closed) (hI : I s.world)
    (hscope : s.heap.Has scope) {e : Expr}
    (hliterals : ∀ v, Within (literal v) e → s.heap.Has v)
    (he : ∀ target value, ¬ Within (assign target value) e) :
    Kept s.heap I (stateAfter (e.evaluate env filters scope s)) ∧
    (∀ s', Kept s.heap I s' →
      Kept s'.heap I (stateAfter (e.evaluate env filters scope s')) ∧
      (atStart s.heap).SameOutcome s.heap s'.heap
        (fun ρ v v' => ρ.Corresponds v v' ∧ (s.heap.Has v → v' = v) ∧
          (¬ s.heap.Has v → ¬ s'.heap.Has v'))
        (e.evaluate env filters scope s) (e.evaluate env filters scope s')) ∧
    ∀ v t, e.evaluate env filters scope s = .ok v t →
      (∀ es, e = array es → ∃ r, v = .array r ∧ ¬ s.heap.Has v ∧ t.heap.Has v) ∧
      ∀ keys es, e = object keys es → ∃ r, v = .object r ∧ ¬ s.heap.Has v ∧ t.heap.Has v := by
  have hpreserves : ∀ d, (∀ target value, ¬ Within (assign target value) d) →
      Preserves I (d.evaluate env filters scope) :=
    fun d hd => preserves_evaluate repeatable repeatableFilters hd
  refine ⟨hpreserves e he s hI, fun s' hs' => ⟨hpreserves e he s' hs'.2, ?_⟩,
    fun v t hrun => ⟨?_, ?_⟩⟩
  · have hheaps := (heaps_atStart closed).extend_right hs'.1
    refine (repeats_evaluate repeatable repeatableFilters hscope hliterals he _ s s' hheaps hI
      hs'.2).imp fun ρ v v' hgrows hv => ⟨hv, fun hold => hv.eq_of_has hold, fun hnew => ?_⟩
    exact not_has_of_grows hgrows hv hnew
  · rintro es rfl
    exact array_is_fresh hI
      (fun d hd => hpreserves d fun target value h => he target value (.part hd h)) hrun
  · rintro keys es rfl
    exact object_is_fresh hI
      (fun d hd => hpreserves d fun target value h => he target value (.part hd h)) hrun

/-- Functions that count their calls, and answer with a fresh array of their arguments. -/
def counting : Embedding Nat where
  call _ args := fun s => .ok (s.heap.newArray args.toArray).1
    ⟨(s.heap.newArray args.toArray).2, s.world + 1⟩
  get _ _ := pure none
  set _ _ _ := pure false
  invoke _ _ _ := pure none

theorem repeatable_counting (start : Heap) : counting.Repeatable start fun _ => True where
  call f := by
    refine ⟨fun args s _ => ⟨s.heap.extends_newArray _, trivial⟩, fun ρ args args' ha => ?_⟩
    intro s s' hh _ _
    exact ⟨ρ.withArray hh, grows_withArray hh, heaps_newArray hh ha, .array (.inr ⟨rfl, rfl⟩)⟩
  get k name := ⟨fun _ s _ => ⟨.refl _, trivial⟩,
    fun ρ _ _ _ s s' hh _ _ => ⟨ρ, .refl ρ _ _, hh, .none⟩⟩
  invoke k name := ⟨fun _ s _ => ⟨.refl _, trivial⟩,
    fun ρ _ _ _ s s' hh _ _ => ⟨ρ, .refl ρ _ _, hh, .none⟩⟩

/-- An object with a function and an array of one item. -/
def supplied : Heap where
  arrays := #[#[.int 1]]
  objects := #[[("f", .function 0), ("x", .array 0)]]

theorem closed_supplied : supplied.Closed := by
  refine ⟨fun r v hv => ?_, fun r p hp => ?_⟩
  · cases r with
    | zero =>
      obtain rfl : v = .int 1 := by simpa [supplied, Heap.items] using hv
      trivial
    | succ r => simp [supplied, Heap.items] at hv
  · cases r with
    | zero =>
      have hp : p = ("f", .function 0) ∨ p = ("x", .array 0) := by
        simpa [supplied, Heap.fields] using hp
      rcases hp with rfl | rfl
      · trivial
      · exact Nat.zero_lt_one
    | succ r => simp [supplied, Heap.fields] at hp

/-- Both evaluations of `[f(x), x]` make two arrays. Those of the second hold what corresponds, and
the array that was there before is in both. -/
theorem evaluate_again_counting :
    ∃ (t t' : Store Nat) (ρ : Correspondence supplied),
      (array [callScope "f" [.scope "x"], .scope "x"]).evaluate counting .none (.object 0)
        ⟨supplied, 0⟩ = .ok (.array 2) t ∧
      (array [callScope "f" [.scope "x"], .scope "x"]).evaluate counting .none (.object 0) t =
        .ok (.array 4) t' ∧
      t.heap.items 2 = #[.array 1, .array 0] ∧ t'.heap.items 4 = #[.array 3, .array 0] ∧
      ρ.Corresponds (.array 2) (.array 4) ∧ ρ.Heaps t.heap t'.heap ∧ ¬ t.heap.Has (.array 4) := by
  let e := array [callScope "f" [.scope "x"], .scope "x"]
  have hnodes : ∀ d, Within d e → (∀ target value, d ≠ assign target value) ∧
      ∀ v, d ≠ literal v := by
    intro d hd
    have hmem : d = e ∨ d = callScope "f" [.scope "x"] ∨ d = .scope "x" := by
      simpa [e, preorder_eq, parts] using mem_preorder_iff.mpr hd
    rcases hmem with rfl | rfl | rfl <;> simp [e]
  have hfilters : (FilterLookup.none : FilterLookup Nat).Repeatable supplied fun _ => True := by
    rintro name run ⟨⟩
  let once : Store Nat :=
    ⟨{ supplied with arrays := #[#[.int 1], #[.array 0], #[.array 1, .array 0]] }, 1⟩
  let twice : Store Nat :=
    ⟨{ supplied with arrays := #[#[.int 1], #[.array 0], #[.array 1, .array 0], #[.array 0],
      #[.array 3, .array 0]] }, 2⟩
  have hfirst : e.evaluate counting .none (.object 0) ⟨supplied, 0⟩ = .ok (.array 2) once := by rfl
  have hsecond : e.evaluate counting .none (.object 0) once = .ok (.array 4) twice := by rfl
  obtain ⟨hkept, hsame, _⟩ := evaluate_again (s := ⟨supplied, 0⟩) (repeatable_counting supplied)
    hfilters closed_supplied trivial (show supplied.Has (.object 0) from Nat.zero_lt_one)
    (fun v hv => absurd rfl ((hnodes _ hv).2 v))
    fun target value h => (hnodes _ h).1 target value rfl
  rw [hfirst] at hkept hsame
  have houtcome := (hsame once hkept).2
  rw [hsecond] at houtcome
  obtain ⟨ρ, _, hheaps, hv, _, hnew⟩ := houtcome
  exact ⟨once, twice, ρ, hfirst, hsecond, rfl, rfl, hv, hheaps,
    hnew (by simp [Heap.Has, supplied])⟩

end Expr

end TemplateExpr
