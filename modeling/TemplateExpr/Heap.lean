import TemplateExpr.Value

/-!
# The heap

The heap holds the items of every array and the fields of every object. Reading a reference that
was never given out gives an empty array or object.

* `Heap.items`, `Heap.fields`           what a reference holds;
* `Heap.newArray`, `Heap.newObject`     a fresh reference;
* `Heap.setItems`, `Heap.setFields`     the heap with the contents of one reference replaced;
* `Heap.newOverlay`                     locals in front of a scope, with an identity of its own;
* `Heap.equals`                         equality of contents.
-/

namespace TemplateExpr

structure Heap where
  arrays : Array (Array Value) := #[]
  objects : Array (Fields Value) := #[]
  /-- How many overlays were made. -/
  overlays : Nat := 0

namespace Heap

def empty : Heap := {}

def items (h : Heap) (ref : Nat) : Array Value := h.arrays[ref]?.getD #[]

def fields (h : Heap) (ref : Nat) : Fields Value := h.objects[ref]?.getD []

def newArray (h : Heap) (items : Array Value) : Value × Heap :=
  (.array h.arrays.size, { h with arrays := h.arrays.push items })

def newObject (h : Heap) (fields : Fields Value) : Value × Heap :=
  (.object h.objects.size, { h with objects := h.objects.push fields })

def newOverlay (h : Heap) (scope locals : Value) : Value × Heap :=
  (.overlay h.overlays scope locals, { h with overlays := h.overlays + 1 })

def setItems (h : Heap) (ref : Nat) (items : Array Value) : Heap :=
  { h with arrays := h.arrays.setIfInBounds ref items }

def setFields (h : Heap) (ref : Nat) (fields : Fields Value) : Heap :=
  { h with objects := h.objects.setIfInBounds ref fields }

/-! ## equality -/

/-- Equality of contents down to a depth, below which only identity counts. A container equals
itself, whatever it holds. -/
def equalsTo (h : Heap) : Nat → Value → Value → Bool
  | 0, v, w => v.same w
  | depth + 1, .array r, .array s =>
    r == s || (h.items r).toList.isEqv (h.items s).toList (h.equalsTo depth)
  | depth + 1, .object r, .object s =>
    r == s || (h.fields r).isEqv (h.fields s) fun a b =>
      a.1 == b.1 && h.equalsTo depth a.2 b.2
  | _ + 1, v, w => v.same w

/-- How many pairs of containers there are. A comparison that goes deeper has met a pair of
containers below itself. -/
def pairs (h : Heap) : Nat :=
  h.arrays.size * h.arrays.size + h.objects.size * h.objects.size

def equals (h : Heap) (v w : Value) : Bool := h.equalsTo (h.pairs + 1) v w

/-! ## contents after an operation -/

theorem items_newArray_self (h : Heap) (items : Array Value) :
    (h.newArray items).2.items h.arrays.size = items := by
  simp [Heap.items, newArray]

theorem fields_newObject_self (h : Heap) (fields : Fields Value) :
    (h.newObject fields).2.fields h.objects.size = fields := by
  simp [Heap.fields, newObject]

theorem items_setItems_self (h : Heap) {ref : Nat} (items : Array Value)
    (known : ref < h.arrays.size) : (h.setItems ref items).items ref = items := by
  simp [Heap.items, setItems, known]

theorem items_setItems_of_ne (h : Heap) {ref other : Nat} (items : Array Value)
    (ne : other ≠ ref) : (h.setItems ref items).items other = h.items other := by
  simp [Heap.items, setItems, Array.getElem?_setIfInBounds_ne (Ne.symm ne)]

theorem fields_setFields_self (h : Heap) {ref : Nat} (fields : Fields Value)
    (known : ref < h.objects.size) : (h.setFields ref fields).fields ref = fields := by
  simp [Heap.fields, setFields, known]

theorem fields_setFields_of_ne (h : Heap) {ref other : Nat} (fields : Fields Value)
    (ne : other ≠ ref) : (h.setFields ref fields).fields other = h.fields other := by
  simp [Heap.fields, setFields, Array.getElem?_setIfInBounds_ne (Ne.symm ne)]

end Heap

end TemplateExpr
