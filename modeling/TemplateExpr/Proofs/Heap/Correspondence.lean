import Mathlib.Data.List.Forall2
import TemplateExpr.Proofs.Action

/-!
# Heaps that correspond

Two runs from one heap may make different numbers of arrays and objects, so that what is made in
both has different references. A correspondence says which reference of the one answers to which of
the other. The references of the heap at the start answer to themselves.

* `Heap.Closed`, `Heap.Has`      every reference was given out;
* `Correspondence`               which references answer to each other;
* `Correspondence.Corresponds`   equal values, up to these references;
* `Correspondence.Heaps`         references that answer to each other hold what corresponds.
-/

namespace TemplateExpr

namespace Heap

/-! ## references that were given out -/

/-- The references in a value were given out. -/
def Has (h : Heap) : Value → Prop
  | .array r => r < h.arrays.size
  | .object r => r < h.objects.size
  | .overlay _ scope locals => h.Has scope ∧ h.Has locals
  | _ => True

/-- The references in the heap were given out. -/
structure Closed (h : Heap) : Prop where
  items : ∀ r, ∀ v ∈ (h.items r).toList, h.Has v
  fields : ∀ r, ∀ p ∈ h.fields r, h.Has p.2

end Heap

/-! ## correspondences -/

structure Correspondence (start : Heap) where
  arrays : Nat → Nat → Prop
  objects : Nat → Nat → Prop
  arrays_unique : ∀ {a b c d}, arrays a b → arrays c d → (a = c ↔ b = d)
  objects_unique : ∀ {a b c d}, objects a b → objects c d → (a = c ↔ b = d)
  arrays_start : ∀ a, a < start.arrays.size → arrays a a
  objects_start : ∀ a, a < start.objects.size → objects a a

namespace Correspondence

variable {start : Heap}

/-- Values that are the same up to the references in them. -/
inductive Corresponds (ρ : Correspondence start) : Value → Value → Prop where
  | null : Corresponds ρ .null .null
  | bool (b) : Corresponds ρ (.bool b) (.bool b)
  | int (n) : Corresponds ρ (.int n) (.int n)
  | float (x) : Corresponds ρ (.float x) (.float x)
  | str (s) : Corresponds ρ (.str s) (.str s)
  | array {r r'} : ρ.arrays r r' → Corresponds ρ (.array r) (.array r')
  | object {r r'} : ρ.objects r r' → Corresponds ρ (.object r) (.object r')
  | function (f) : Corresponds ρ (.function f) (.function f)
  | host (k) : Corresponds ρ (.host k) (.host k)
  | overlay (i) {scope scope' locals locals'} : Corresponds ρ scope scope' →
      Corresponds ρ locals locals' →
      Corresponds ρ (.overlay i scope locals) (.overlay i scope' locals')

/-- Fields with the same names and corresponding contents. -/
def Pairs (ρ : Correspondence start) (p p' : String × Value) : Prop :=
  p.1 = p'.1 ∧ ρ.Corresponds p.2 p'.2

structure Heaps (ρ : Correspondence start) (h h' : Heap) : Prop where
  arrays_lt : ∀ {r r'}, ρ.arrays r r' → r < h.arrays.size ∧ r' < h'.arrays.size
  objects_lt : ∀ {r r'}, ρ.objects r r' → r < h.objects.size ∧ r' < h'.objects.size
  items : ∀ {r r'}, ρ.arrays r r' →
    List.Forall₂ ρ.Corresponds (h.items r).toList (h'.items r').toList
  fields : ∀ {r r'}, ρ.objects r r' → List.Forall₂ ρ.Pairs (h.fields r) (h'.fields r')

/-- More references answer to each other. -/
structure Le (ρ ρ' : Correspondence start) : Prop where
  arrays : ∀ {r r'}, ρ.arrays r r' → ρ'.arrays r r'
  objects : ∀ {r r'}, ρ.objects r r' → ρ'.objects r r'

theorem Le.refl (ρ : Correspondence start) : Le ρ ρ := ⟨id, id⟩

theorem Le.trans {ρ₁ ρ₂ ρ₃ : Correspondence start} (h : Le ρ₁ ρ₂) (h' : Le ρ₂ ρ₃) : Le ρ₁ ρ₃ :=
  ⟨fun hr => h'.arrays (h.arrays hr), fun hr => h'.objects (h.objects hr)⟩

section
variable {ρ ρ' : Correspondence start}

theorem Corresponds.mono (hle : Le ρ ρ') {v v' : Value} (h : ρ.Corresponds v v') :
    ρ'.Corresponds v v' := by
  induction h with
  | null => exact .null
  | bool b => exact .bool b
  | int n => exact .int n
  | float x => exact .float x
  | str s => exact .str s
  | array hr => exact .array (hle.arrays hr)
  | object hr => exact .object (hle.objects hr)
  | function f => exact .function f
  | host k => exact .host k
  | overlay i _ _ ihs ihl => exact .overlay i ihs ihl

theorem mono_all (hle : Le ρ ρ') {vs vs' : List Value}
    (h : List.Forall₂ ρ.Corresponds vs vs') : List.Forall₂ ρ'.Corresponds vs vs' :=
  h.imp fun _ _ hv => hv.mono hle

theorem mono_fields (hle : Le ρ ρ') {fs fs' : Fields Value}
    (h : List.Forall₂ ρ.Pairs fs fs') : List.Forall₂ ρ'.Pairs fs fs' :=
  h.imp fun _ _ hp => ⟨hp.1, hp.2.mono hle⟩

/-- A value of the start corresponds to itself only. -/
theorem Corresponds.eq_of_has {v v' : Value} (h : ρ.Corresponds v v') (hv : start.Has v) :
    v' = v := by
  induction h with
  | array hr =>
    have := (ρ.arrays_unique hr (ρ.arrays_start _ hv)).mp rfl
    rw [this]
  | object hr =>
    have := (ρ.objects_unique hr (ρ.objects_start _ hv)).mp rfl
    rw [this]
  | overlay i _ _ ihs ihl => rw [ihs hv.1, ihl hv.2]
  | _ => rfl

theorem corresponds_self {v : Value} (hv : start.Has v) : ρ.Corresponds v v := by
  induction v with
  | null => exact .null
  | bool b => exact .bool b
  | int n => exact .int n
  | float x => exact .float x
  | str s => exact .str s
  | array r => exact .array (ρ.arrays_start r hv)
  | object r => exact .object (ρ.objects_start r hv)
  | function f => exact .function f
  | host k => exact .host k
  | overlay i scope locals ihs ihl => exact .overlay i (ihs hv.1) (ihl hv.2)

/-! ## heaps that grow -/

/-- What is added to the heap of one run does not matter to the other. -/
theorem Heaps.extend_left {h t h' : Heap} (hh : ρ.Heaps h h') (ht : h.Extends t) :
    ρ.Heaps t h' := by
  refine ⟨fun hr => ?_, fun hr => ?_, fun hr => ?_, fun hr => ?_⟩
  · exact ⟨Nat.lt_of_lt_of_le (hh.arrays_lt hr).1 ht.arrays_le, (hh.arrays_lt hr).2⟩
  · exact ⟨Nat.lt_of_lt_of_le (hh.objects_lt hr).1 ht.objects_le, (hh.objects_lt hr).2⟩
  · rw [ht.items_eq _ (hh.arrays_lt hr).1]
    exact hh.items hr
  · rw [ht.fields_eq _ (hh.objects_lt hr).1]
    exact hh.fields hr

theorem Heaps.extend_right {h h' t' : Heap} (hh : ρ.Heaps h h') (ht : h'.Extends t') :
    ρ.Heaps h t' := by
  refine ⟨fun hr => ?_, fun hr => ?_, fun hr => ?_, fun hr => ?_⟩
  · exact ⟨(hh.arrays_lt hr).1, Nat.lt_of_lt_of_le (hh.arrays_lt hr).2 ht.arrays_le⟩
  · exact ⟨(hh.objects_lt hr).1, Nat.lt_of_lt_of_le (hh.objects_lt hr).2 ht.objects_le⟩
  · rw [ht.items_eq _ (hh.arrays_lt hr).2]
    exact hh.items hr
  · rw [ht.fields_eq _ (hh.objects_lt hr).2]
    exact hh.fields hr

end

/-- At the start, every reference answers to itself. -/
def atStart (start : Heap) : Correspondence start where
  arrays a b := a = b ∧ a < start.arrays.size
  objects a b := a = b ∧ a < start.objects.size
  arrays_unique := by
    rintro a b c d ⟨rfl, _⟩ ⟨rfl, _⟩
    exact Iff.rfl
  objects_unique := by
    rintro a b c d ⟨rfl, _⟩ ⟨rfl, _⟩
    exact Iff.rfl
  arrays_start _ h := ⟨rfl, h⟩
  objects_start _ h := ⟨rfl, h⟩

theorem heaps_atStart (closed : start.Closed) : (atStart start).Heaps start start := by
  refine ⟨?_, ?_, ?_, ?_⟩
  · rintro r _ ⟨rfl, hr⟩
    exact ⟨hr, hr⟩
  · rintro r _ ⟨rfl, hr⟩
    exact ⟨hr, hr⟩
  · rintro r _ ⟨rfl, hr⟩
    exact List.forall₂_same.mpr fun v hv => corresponds_self (closed.items r v hv)
  · rintro r _ ⟨rfl, hr⟩
    exact List.forall₂_same.mpr fun p hp => ⟨rfl, corresponds_self (closed.fields r p hp)⟩

/-! ## making arrays and objects -/

section
variable (ρ : Correspondence start) {h h' : Heap} (hh : ρ.Heaps h h')

/-- The next array of the one heap answers to the next array of the other. -/
def withArray : Correspondence start where
  arrays a b := ρ.arrays a b ∨ a = h.arrays.size ∧ b = h'.arrays.size
  objects := ρ.objects
  arrays_unique := by
    rintro a b c d (hab | ⟨rfl, rfl⟩) (hcd | ⟨rfl, rfl⟩)
    · exact ρ.arrays_unique hab hcd
    · have := hh.arrays_lt hab
      omega
    · have := hh.arrays_lt hcd
      omega
    · simp
  objects_unique := ρ.objects_unique
  arrays_start a ha := .inl (ρ.arrays_start a ha)
  objects_start := ρ.objects_start

def withObject : Correspondence start where
  arrays := ρ.arrays
  objects a b := ρ.objects a b ∨ a = h.objects.size ∧ b = h'.objects.size
  arrays_unique := ρ.arrays_unique
  objects_unique := by
    rintro a b c d (hab | ⟨rfl, rfl⟩) (hcd | ⟨rfl, rfl⟩)
    · exact ρ.objects_unique hab hcd
    · have := hh.objects_lt hab
      omega
    · have := hh.objects_lt hcd
      omega
    · simp
  arrays_start := ρ.arrays_start
  objects_start a ha := .inl (ρ.objects_start a ha)

theorem le_withArray : Le ρ (ρ.withArray hh) := ⟨.inl, id⟩

theorem le_withObject : Le ρ (ρ.withObject hh) := ⟨id, .inl⟩

variable {ρ}

theorem heaps_newArray {items items' : List Value}
    (hi : List.Forall₂ ρ.Corresponds items items') :
    (ρ.withArray hh).Heaps (h.newArray items.toArray).2 (h'.newArray items'.toArray).2 := by
  have hle := ρ.le_withArray hh
  refine ⟨?_, ?_, ?_, ?_⟩
  · rintro r r' (hr | ⟨rfl, rfl⟩)
    · have := hh.arrays_lt hr
      simp only [Heap.newArray, Array.size_push]
      omega
    · simp [Heap.newArray]
  · intro r r' hr
    exact hh.objects_lt hr
  · rintro r r' (hr | ⟨rfl, rfl⟩)
    · rw [(h.extends_newArray _).items_eq r (hh.arrays_lt hr).1,
        (h'.extends_newArray _).items_eq r' (hh.arrays_lt hr).2]
      exact mono_all hle (hh.items hr)
    · rw [h.items_newArray_self, h'.items_newArray_self]
      exact mono_all hle hi
  · intro r r' hr
    exact mono_fields hle (hh.fields hr)

theorem heaps_newObject {fields fields' : Fields Value}
    (hf : List.Forall₂ ρ.Pairs fields fields') :
    (ρ.withObject hh).Heaps (h.newObject fields).2 (h'.newObject fields').2 := by
  have hle := ρ.le_withObject hh
  refine ⟨?_, ?_, ?_, ?_⟩
  · intro r r' hr
    exact hh.arrays_lt hr
  · rintro r r' (hr | ⟨rfl, rfl⟩)
    · have := hh.objects_lt hr
      simp only [Heap.newObject, Array.size_push]
      omega
    · simp [Heap.newObject]
  · intro r r' hr
    exact mono_all hle (hh.items hr)
  · rintro r r' (hr | ⟨rfl, rfl⟩)
    · rw [(h.extends_newObject _).fields_eq r (hh.objects_lt hr).1,
        (h'.extends_newObject _).fields_eq r' (hh.objects_lt hr).2]
      exact mono_fields hle (hh.fields hr)
    · rw [h.fields_newObject_self, h'.fields_newObject_self]
      exact mono_fields hle hf

end

end Correspondence

end TemplateExpr
