import TemplateExpr.Access
import TemplateExpr.Proofs.Heap.Data

/-!
# Paths through data

A path leads from a value into its contents, segment by segment. What it finds is read off the heap,
and one write to the container before the last segment changes what it finds there.

* `Segment`            a member name, or a literal key;
* `Heap.step`          what one segment leads to, and `Heap.follow` what a path leads to;
* `Heap.Refuses`       the values that a segment cannot be written to;
* `Heap.write`         the heap after a write;
* `Slot`               the places of the items and fields of containers;
* `Heap.at?_write`     a write changes one slot, and pads an array with nulls.
-/

namespace TemplateExpr

/-- Null, booleans, numbers and texts. -/
def Value.isScalar : Value → Bool
  | null | bool _ | int _ | float _ | str _ => true
  | _ => false

/-- Everything but host objects and the overlays of scopes. -/
def Value.isPlain : Value → Bool
  | host _ | overlay .. => false
  | _ => true

theorem Value.isContainer_of_isScalar {v : Value} (hv : v.isScalar = true) :
    v.isContainer = false ∧ v.isPlain = true := by
  cases v <;> first | exact ⟨rfl, rfl⟩ | cases hv

inductive Segment where
  | member (name : String)
  | key (k : Value) (literal : k.isScalar = true)

/-- The field of an object that a segment leads to. -/
def Segment.name : Segment → String
  | member name => name
  | key k _ => Snapshot.leafText k

theorem Fields.mem_of_get? {α : Type} {fields : Fields α} {name : String} {a : α}
    (h : fields.get? name = some a) : (name, a) ∈ fields := by
  induction fields with
  | nil => cases h
  | cons pair rest ih =>
    obtain ⟨key, b⟩ := pair
    rw [get?] at h
    split at h
    · next heq =>
      rw [heq, Option.some.inj h]
      exact List.mem_cons_self
    · exact List.mem_cons_of_mem _ (ih h)

theorem Value.isSome_asInt?_of_asIndex? {v : Value} {i : Nat} (h : v.asIndex? = some i) :
    v.asInt?.isSome = true := by
  rw [asIndex?] at h
  cases hint : v.asInt? with
  | none =>
    rw [hint] at h
    cases h
  | some n => rfl

theorem Value.getElem?_setItem (items : Array Value) (i : Nat) (v : Value) (j : Nat) :
    (setItem items i v)[j]? =
      if j = i then some v else if j < items.size then items[j]?
      else if j < i then some null else none := by
  unfold setItem
  by_cases hj : j = i
  · have hsize : i < (items ++ Array.replicate (i + 1 - items.size) null).size := by
      rw [Array.size_append, Array.size_replicate]
      omega
    rw [if_pos hj, hj, Array.getElem?_setIfInBounds_self_of_lt hsize]
  · rw [if_neg hj, Array.getElem?_setIfInBounds_ne (Ne.symm hj), Array.getElem?_append,
      Array.getElem?_replicate]
    by_cases hold : j < items.size
    · rw [if_pos hold, if_pos hold]
    · rw [if_neg hold, if_neg hold]
      by_cases hpad : j < i
      · rw [if_pos hpad, if_pos (by omega)]
      · rw [if_neg hpad, if_neg (by omega)]

/-- The items of an array with the one set that a segment leads to. -/
def Segment.setItem (items : Array Value) (v : Value) : Segment → Array Value
  | member _ => items
  | key k _ =>
    match k.asIndex? with
    | some i => Value.setItem items i v
    | none => items

namespace Heap

/-- Data without host objects and overlays. -/
abbrev PlainData (h : Heap) : Value → Prop := h.Data fun v => v.isPlain = true

/-! ## reading -/

def property (h : Heap) : Value → String → Value
  | .object r, name => ((h.fields r).get? name).getD .null
  | .array r, name => if name = "length" then .ofNat (h.items r).size else .null
  | .str s, name => if name = "length" then .ofNat s.length else .null
  | _, _ => .null

/-- Numbers lead to the items of arrays and texts. -/
def step (h : Heap) (c : Value) (a : Segment) : Value :=
  match c, a with
  | .array r, .key k _ =>
    if k.asInt?.isSome then (k.asIndex?.bind ((h.items r)[·]?)).getD .null
    else h.property c a.name
  | .str s, .key k _ =>
    if k.asInt?.isSome then (k.asIndex?.map (Value.charAt s)).getD .null
    else h.property c a.name
  | c, a => h.property c a.name

def follow (h : Heap) (c : Value) (path : List Segment) : Value := path.foldl h.step c

variable {P : Value → Prop} {h h' : Heap} {c : Value}

theorem follow_cons (h : Heap) (c : Value) (a : Segment) (path : List Segment) :
    h.follow c (a :: path) = h.follow (h.step c a) path := rfl

theorem follow_append (h : Heap) (c : Value) (path rest : List Segment) :
    h.follow c (path ++ rest) = h.follow (h.follow c path) rest :=
  List.foldl_append

theorem follow_concat (h : Heap) (c : Value) (path : List Segment) (a : Segment) :
    h.follow c (path ++ [a]) = h.step (h.follow c path) a :=
  h.follow_append c path [a]

/-- A segment leads to a content of a container, or to a scalar. -/
theorem contains_property (h : Heap) (c : Value) (name : String) :
    h.Contains c (h.property c name) ∨ (h.property c name).isScalar = true := by
  cases c with
  | object r =>
    rw [property]
    cases hfound : (h.fields r).get? name with
    | none => exact .inr rfl
    | some w => exact .inl (.field (Fields.mem_of_get? hfound))
  | array r =>
    rw [property]
    split <;> exact .inr rfl
  | str s =>
    rw [property]
    split <;> exact .inr rfl
  | _ => exact .inr rfl

theorem contains_step (h : Heap) (c : Value) (a : Segment) :
    h.Contains c (h.step c a) ∨ (h.step c a).isScalar = true := by
  unfold step
  split
  · next r k _ =>
    split
    · cases hindex : k.asIndex? with
      | none => exact .inr rfl
      | some i =>
        show h.Contains _ ((h.items r)[i]?.getD .null) ∨
          ((h.items r)[i]?.getD .null).isScalar = true
        cases hitem : (h.items r)[i]? with
        | none => exact .inr rfl
        | some w => exact .inl (.item (Array.mem_toList_iff.mpr (Array.mem_of_getElem? hitem)))
    · exact h.contains_property _ _
  · next s k _ =>
    split
    · cases k.asIndex? with
      | none => exact .inr rfl
      | some i =>
        refine .inr ?_
        show (Value.charAt s i).isScalar = true
        unfold Value.charAt
        split <;> rfl
    · exact h.contains_property _ _
  · exact h.contains_property _ _

theorem Data.step (hc : h.PlainData c) (a : Segment) : h.PlainData (h.step c a) := by
  rcases h.contains_step c a with hcontains | hscalar
  · exact hc.of_contains hcontains
  · obtain ⟨hleaf, hplain⟩ := Value.isContainer_of_isScalar hscalar
    exact .leaf hleaf hplain

theorem Data.follow (hc : h.PlainData c) (path : List Segment) : h.PlainData (h.follow c path) := by
  induction path generalizing c with
  | nil => exact hc
  | cons a path ih => exact ih (hc.step a)

theorem Data.isPlain (hc : h.PlainData c) : c.isPlain = true := by
  cases hc with
  | leaf _ hplain => exact hplain
  | array _ _ => rfl
  | object _ _ => rfl

theorem plainData_iff :
    h.PlainData c ↔ h.Acyclic c ∧
      ∀ w, Relation.ReflTransGen h.Contains c w → w.isPlain = true := by
  constructor
  · intro hc
    exact ⟨(data_iff.mp hc).1, fun w hw => (hc.of_reaches hw).isPlain⟩
  · rintro ⟨hacyclic, hplain⟩
    exact data_iff.mpr ⟨hacyclic, fun w hw _ => hplain w hw⟩

/-- A container at the end of a path is inside the start. -/
theorem inside_of_follow {path : List Segment} (hpath : path ≠ [])
    (hend : (h.follow c path).isContainer = true) :
    Relation.TransGen h.Contains c (h.follow c path) := by
  induction path generalizing c with
  | nil => exact absurd rfl hpath
  | cons a path ih =>
    have hcontains : (h.step c a).isContainer = true → h.Contains c (h.step c a) := by
      intro hcontainer
      rcases h.contains_step c a with hcontains | hscalar
      · exact hcontains
      · rw [(Value.isContainer_of_isScalar hscalar).1] at hcontainer
        cases hcontainer
    rw [follow_cons] at hend ⊢
    cases path with
    | nil => exact .single (hcontains hend)
    | cons b path =>
      have hinside := ih (c := h.step c a) (List.cons_ne_nil b path) hend
      obtain ⟨d, hd, _⟩ := Relation.TransGen.head'_iff.mp hinside
      exact .head (hcontains hd.isContainer) hinside

/-! ## what reading depends on -/

/-- Only the contents of the container itself are read. -/
theorem step_eq_of_contents (a : Segment) (hitems : ∀ r, c = .array r → h'.items r = h.items r)
    (hfields : ∀ r, c = .object r → h'.fields r = h.fields r) : h'.step c a = h.step c a := by
  cases c with
  | array r =>
    have := hitems r rfl
    cases a <;> simp only [step, property, this]
  | object r =>
    have := hfields r rfl
    cases a <;> simp only [step, property, this]
  | str s => cases a <;> rfl
  | _ => rfl

theorem Extends.step_eq (hext : h.Extends h') (hc : h.Data P c) (a : Segment) :
    h'.step c a = h.step c a := by
  refine step_eq_of_contents a ?_ ?_
  · rintro r rfl
    exact hext.items_eq r hc.array_lt
  · rintro r rfl
    exact hext.fields_eq r hc.object_lt

theorem Extends.follow_eq (hext : h.Extends h') (hc : h.PlainData c) (path : List Segment) :
    h'.follow c path = h.follow c path := by
  induction path generalizing c with
  | nil => rfl
  | cons a path ih => rw [follow_cons, follow_cons, hext.step_eq hc, ih (hc.step a)]

/-- Heaps in which every container on the path reads the same lead to the same end. -/
theorem follow_eq_of_steps {path : List Segment}
    (hsteps : ∀ j, j < path.length → ∀ a,
      h'.step (h.follow c (path.take j)) a = h.step (h.follow c (path.take j)) a) :
    h'.follow c path = h.follow c path := by
  induction path generalizing c with
  | nil => rfl
  | cons a path ih =>
    have hfirst : h'.step c a = h.step c a := hsteps 0 (Nat.zero_lt_succ _) a
    rw [follow_cons, follow_cons, hfirst]
    exact ih fun j hj => hsteps (j + 1) (Nat.succ_lt_succ hj)

/-! ## writing -/

/-- Scalars, texts and functions take no write, and an array takes one at an index that is not too
far behind its end. -/
def Refuses (h : Heap) : Value → Segment → Prop
  | .object _, _ => False
  | .array r, .key k _ =>
    match k.asIndex? with
    | some i => (h.items r).size + maxArrayGap < i
    | none => True
  | _, _ => True

theorem isContainer_of_not_refuses {a : Segment} (htakes : ¬ h.Refuses c a) :
    c.isContainer = true := by
  cases c <;> first | rfl | exact absurd trivial htakes

def write (h : Heap) (c : Value) (a : Segment) (v : Value) : Heap :=
  match c with
  | .object r => h.setFields r ((h.fields r).insert a.name v)
  | .array r => h.setItems r (a.setItem (h.items r) v)
  | _ => h

theorem size_write (h : Heap) (c : Value) (a : Segment) (v : Value) :
    (h.write c a v).arrays.size = h.arrays.size ∧
      (h.write c a v).objects.size = h.objects.size := by
  cases c with
  | object r => exact ⟨rfl, Array.size_setIfInBounds⟩
  | array r => exact ⟨Array.size_setIfInBounds, rfl⟩
  | _ => exact ⟨rfl, rfl⟩

theorem items_write_of_ne (h : Heap) (a : Segment) (v : Value) {r : Nat} (hne : .array r ≠ c) :
    (h.write c a v).items r = h.items r := by
  cases c with
  | array s => exact h.items_setItems_of_ne _ fun heq => hne (congrArg Value.array heq)
  | _ => rfl

theorem fields_write_of_ne (h : Heap) (a : Segment) (v : Value) {r : Nat} (hne : .object r ≠ c) :
    (h.write c a v).fields r = h.fields r := by
  cases c with
  | object s => exact h.fields_setFields_of_ne _ fun heq => hne (congrArg Value.object heq)
  | _ => rfl

/-- A write is seen only through the container it goes to. -/
theorem step_write_of_ne (h : Heap) (a : Segment) (v : Value) {d : Value} (hne : d ≠ c)
    (b : Segment) : (h.write c a v).step d b = h.step d b := by
  refine step_eq_of_contents b ?_ ?_
  · rintro r rfl
    exact h.items_write_of_ne a v hne
  · rintro r rfl
    exact h.fields_write_of_ne a v hne

/-- What was written is read. -/
theorem step_write_self {a : Segment} (hc : h.Data P c) (htakes : ¬ h.Refuses c a) (v : Value) :
    (h.write c a v).step c a = v := by
  cases hc with
  | leaf hleaf _ =>
    rw [isContainer_of_not_refuses htakes] at hleaf
    cases hleaf
  | @object r hr _ =>
    show (((h.write (.object r) a v).fields r).get? a.name).getD .null = v
    rw [show (h.write (.object r) a v).fields r = _ from h.fields_setFields_self _ hr,
      Fields.get?_insert_self]
    rfl
  | @array r hr _ =>
    cases a with
    | member name => exact absurd trivial htakes
    | key k literal =>
      cases hindex : k.asIndex? with
      | none =>
        refine absurd ?_ htakes
        simp only [Refuses, hindex]
      | some i =>
        have hitem : ((h.write (.array r) (.key k literal) v).items r)[i]? = some v := by
          rw [show (h.write (.array r) (.key k literal) v).items r = _ from
            h.items_setItems_self _ hr]
          simp only [Segment.setItem, hindex]
          rw [Value.getElem?_setItem, if_pos rfl]
        simp only [step, Value.isSome_asInt?_of_asIndex? hindex, if_true, hindex, Option.bind_some,
          hitem, Option.getD_some]

theorem write_extends {a : Segment} (hext : h.Extends h') (hc : h.Data P c) (v : Value) :
    (h.write c a v).Extends (h'.write c a v) := by
  have hsize := h.size_write c a v
  have hsize' := h'.size_write c a v
  have harrays := hext.arrays_le
  have hobjects := hext.objects_le
  refine ⟨by omega, by omega, fun r hr => ?_, fun r hr => ?_⟩
  · rw [hsize.1] at hr
    by_cases heq : .array r = c
    · subst heq
      show (h'.setItems r _).items r = (h.setItems r _).items r
      rw [h.items_setItems_self _ hr, h'.items_setItems_self _ (by omega), hext.items_eq r hr]
    · rw [h.items_write_of_ne a v heq, h'.items_write_of_ne a v heq, hext.items_eq r hr]
  · rw [hsize.2] at hr
    by_cases heq : .object r = c
    · subst heq
      show (h'.setFields r _).fields r = (h.setFields r _).fields r
      rw [h.fields_setFields_self _ hr, h'.fields_setFields_self _ (by omega),
        hext.fields_eq r hr]
    · rw [h.fields_write_of_ne a v heq, h'.fields_write_of_ne a v heq, hext.fields_eq r hr]

theorem Extends.refuses_iff {a : Segment} (hext : h.Extends h') (hc : h.Data P c) :
    h'.Refuses c a ↔ h.Refuses c a := by
  cases hc with
  | @leaf c hleaf _ => cases c <;> first | exact Iff.rfl | cases hleaf
  | object _ _ => exact Iff.rfl
  | @array r hr _ =>
    cases a with
    | member name => exact Iff.rfl
    | key k literal => simp only [Refuses, hext.items_eq r hr]

end Heap

/-! ## slots -/

/-- An item of an array or a field of an object. -/
inductive Slot where
  | item (ref index : Nat)
  | field (ref : Nat) (name : String)

/-- An item of an array stands before another. -/
def Slot.Before : Slot → Slot → Prop
  | item r j, item s i => r = s ∧ j < i
  | _, _ => False

/-- The slot of a container that a write goes to. -/
def Value.slot? : Value → Segment → Option Slot
  | object r, a => some (.field r a.name)
  | array r, .key k _ => k.asIndex?.map (.item r)
  | _, _ => none

namespace Heap

def at? (h : Heap) : Slot → Option Value
  | .item r i => (h.items r)[i]?
  | .field r name => (h.fields r).get? name

def Knows (h : Heap) : Slot → Prop
  | .item r _ => r < h.arrays.size
  | .field r _ => r < h.objects.size

variable {P : Value → Prop} {h h' : Heap} {c : Value}

theorem Extends.at?_eq (hext : h.Extends h') {slot : Slot} (hknown : h.Knows slot) :
    h'.at? slot = h.at? slot := by
  cases slot with
  | item r i => rw [at?, at?, hext.items_eq r hknown]
  | field r name => rw [at?, at?, hext.fields_eq r hknown]

theorem knows_write {a : Segment} {v : Value} {slot : Slot} (hknown : h.Knows slot) :
    (h.write c a v).Knows slot := by
  cases slot with
  | item r i =>
    show r < _
    rw [(h.size_write c a v).1]
    exact hknown
  | field r name =>
    show r < _
    rw [(h.size_write c a v).2]
    exact hknown

/-- **A write changes one slot**, and fills an array with nulls up to it. -/
theorem at?_write {a : Segment} (hc : h.Data P c) (v : Value) {slot : Slot}
    (hother : c.slot? a ≠ some slot) :
    (h.write c a v).at? slot = h.at? slot ∨
      ∃ last, c.slot? a = some last ∧ slot.Before last ∧ h.at? slot = none ∧
        (h.write c a v).at? slot = some .null := by
  cases slot with
  | field s name =>
    refine .inl ?_
    by_cases heq : .object s = c
    · subst heq
      have hname : name ≠ a.name := by
        rintro rfl
        exact hother rfl
      show ((h.setFields s _).fields s).get? name = (h.fields s).get? name
      rw [h.fields_setFields_self _ hc.object_lt, Fields.get?_insert_of_ne _ _ hname]
    · rw [at?, at?, h.fields_write_of_ne a v heq]
  | item s j =>
    by_cases heq : .array s = c
    · subst heq
      have hitems : (h.write (.array s) a v).items s = a.setItem (h.items s) v :=
        h.items_setItems_self _ hc.array_lt
      rw [at?, at?, hitems]
      cases a with
      | member name => exact .inl rfl
      | key k literal =>
        rw [Value.slot?] at hother ⊢
        cases hindex : k.asIndex? with
        | none => exact .inl (by simp only [Segment.setItem, hindex])
        | some i =>
          have hne : j ≠ i := by
            rintro rfl
            exact hother (by rw [hindex]; rfl)
          simp only [Segment.setItem, hindex]
          rw [Value.getElem?_setItem, if_neg hne]
          by_cases hold : j < (h.items s).size
          · exact .inl (if_pos hold)
          · rw [if_neg hold]
            have hnone : (h.items s)[j]? = none := Array.getElem?_eq_none (Nat.le_of_not_lt hold)
            by_cases hpad : j < i
            · rw [if_pos hpad]
              exact .inr ⟨.item s i, rfl, ⟨rfl, hpad⟩, hnone, rfl⟩
            · rw [if_neg hpad]
              exact .inl hnone.symm
    · exact .inl (by rw [at?, at?, h.items_write_of_ne a v heq])

end Heap

end TemplateExpr
