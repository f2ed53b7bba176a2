import Mathlib.Data.List.Nodup
import Mathlib.Logic.Relation
import TemplateExpr.Proofs.Action

/-!
# Plain data

Data is built of leaves: an array or object is data if all that it holds is, in finitely many
steps. Containers may be shared, but none is inside itself.

* `Heap.Contains`         an item of an array, or the content of a field of an object;
* `Heap.Data`             data with leaves of some kind;
* `Data.contents_induction`   induction from contents to containers;
* `Data.not_inside_self`  data has no cycles;
* `Heap.Above`            a path of containers, each inside the next, down to a value;
* `Above.length_le`       such a path is no longer than the number of containers;
* `Heap.data_iff`         data is what is acyclic.
-/

namespace TemplateExpr

/-- Arrays and objects hold other values. -/
def Value.isContainer : Value → Bool
  | array _ | object _ => true
  | _ => false

/-- A container is the same as itself only. -/
theorem Value.same_eq_true_iff {c v : Value} (hc : c.isContainer = true) :
    same c v = true ↔ v = c := by
  cases c with
  | array r =>
    cases v with
    | array s => rw [same, beq_iff_eq, array.injEq, eq_comm]
    | _ => simp [same]
  | object r =>
    cases v with
    | object s => rw [same, beq_iff_eq, object.injEq, eq_comm]
    | _ => simp [same]
  | _ => cases hc

namespace Heap

inductive Contains (h : Heap) : Value → Value → Prop where
  | item {r v} : v ∈ (h.items r).toList → Contains h (.array r) v
  | field {r p} : p ∈ h.fields r → Contains h (.object r) p.2

theorem Contains.isContainer {h : Heap} {c v : Value} (hc : h.Contains c v) :
    c.isContainer = true := by
  cases hc <;> rfl

/-- The containers are known, and the leaves are of a kind `P`. -/
inductive Data (P : Value → Prop) (h : Heap) : Value → Prop where
  | leaf {v} : v.isContainer = false → P v → Data P h v
  | array {r} : r < h.arrays.size → (∀ v ∈ (h.items r).toList, Data P h v) → Data P h (.array r)
  | object {r} : r < h.objects.size → (∀ p ∈ h.fields r, Data P h p.2) → Data P h (.object r)

variable {P : Value → Prop} {h h' : Heap}

theorem Data.array_lt {r : Nat} (hdata : h.Data P (.array r)) : r < h.arrays.size := by
  cases hdata with
  | leaf hleaf _ => cases hleaf
  | array hr _ => exact hr

theorem Data.object_lt {r : Nat} (hdata : h.Data P (.object r)) : r < h.objects.size := by
  cases hdata with
  | leaf hleaf _ => cases hleaf
  | object hr _ => exact hr

theorem Data.of_contains {v w : Value} (hv : h.Data P v) (hw : h.Contains v w) : h.Data P w := by
  cases hw with
  | item hmem =>
    cases hv with
    | leaf hleaf _ => cases hleaf
    | array _ hitems => exact hitems _ hmem
  | field hmem =>
    cases hv with
    | leaf hleaf _ => cases hleaf
    | object _ hfields => exact hfields _ hmem

theorem Data.mono {v : Value} (hext : h.Extends h') (hv : h.Data P v) : h'.Data P v := by
  induction hv with
  | leaf hleaf hP => exact .leaf hleaf hP
  | array hr _ ih =>
    refine .array (Nat.lt_of_lt_of_le hr hext.arrays_le) ?_
    rw [hext.items_eq _ hr]
    exact ih
  | object hr _ ih =>
    refine .object (Nat.lt_of_lt_of_le hr hext.objects_le) ?_
    rw [hext.fields_eq _ hr]
    exact ih

theorem data_newArray {items : Array Value} (hitems : ∀ v ∈ items.toList, h.Data P v) :
    (h.newArray items).2.Data P (.array h.arrays.size) := by
  refine .array (by simp [newArray]) ?_
  rw [h.items_newArray_self]
  exact fun v hv => (hitems v hv).mono (h.extends_newArray items)

theorem data_newObject {fields : Fields Value} (hfields : ∀ p ∈ fields, h.Data P p.2) :
    (h.newObject fields).2.Data P (.object h.objects.size) := by
  refine .object (by simp [newObject]) ?_
  rw [h.fields_newObject_self]
  exact fun p hp => (hfields p hp).mono (h.extends_newObject fields)

/-- A cycle through a container is a cycle through one of its contents. -/
theorem not_inside_self_of_contents {v : Value}
    (ih : ∀ w, h.Contains v w → ¬ Relation.TransGen h.Contains w w) :
    ¬ Relation.TransGen h.Contains v v := by
  intro hcycle
  obtain ⟨w, hvw, hwv⟩ := Relation.TransGen.head'_iff.mp hcycle
  exact ih w hvw (Relation.TransGen.tail' hwv hvw)

/-- Induction on data, from what a value contains to the value. -/
@[elab_as_elim]
theorem Data.contents_induction {motive : ∀ v, h.Data P v → Prop}
    (step : ∀ v hv, (∀ w hw, motive w (Data.of_contains (w := w) hv hw)) → motive v hv)
    (v : Value) (hv : h.Data P v) : motive v hv := by
  induction hv with
  | leaf hleaf hP =>
    refine step _ (.leaf hleaf hP) fun w hw => ?_
    cases hw <;> cases hleaf
  | array hr hitems ih =>
    refine step _ (.array hr hitems) fun w hw => ?_
    cases hw with
    | item hmem => exact ih _ hmem
  | object hr hfields ih =>
    refine step _ (.object hr hfields) fun w hw => ?_
    cases hw with
    | field hmem => exact ih _ hmem

/-- **No container of data is inside itself.** -/
theorem Data.not_inside_self {v : Value} (hv : h.Data P v) :
    ¬ Relation.TransGen h.Contains v v := by
  induction v, hv using Data.contents_induction with
  | step v _ ih => exact not_inside_self_of_contents ih

/-! ## paths -/

def containers (h : Heap) : List Value :=
  (List.range h.arrays.size).map .array ++ (List.range h.objects.size).map .object

theorem length_containers (h : Heap) :
    h.containers.length = h.arrays.size + h.objects.size := by
  simp [containers]

theorem Data.mem_containers {v : Value} (hv : h.Data P v) (hc : v.isContainer = true) :
    v ∈ h.containers := by
  cases hv with
  | leaf hleaf _ =>
    rw [hleaf] at hc
    cases hc
  | array hr _ => exact List.mem_append_left _ (List.mem_map_of_mem (List.mem_range.mpr hr))
  | object hr _ => exact List.mem_append_right _ (List.mem_map_of_mem (List.mem_range.mpr hr))

/-- The value is inside each container of the path, and they are different. -/
structure Above (h : Heap) (v : Value) (path : List Value) : Prop where
  nodup : path.Nodup
  known : path ⊆ h.containers
  inside : ∀ c ∈ path, Relation.TransGen h.Contains c v

theorem Above.nil (v : Value) : h.Above v [] :=
  ⟨List.nodup_nil, List.nil_subset _, fun _ hc => absurd hc List.not_mem_nil⟩

namespace Above

variable {v w : Value} {path : List Value}

theorem length_le (hpath : h.Above v path) : path.length ≤ h.arrays.size + h.objects.size := by
  rw [← length_containers]
  exact hpath.nodup.length_le_of_subset hpath.known

/-- Where there is room for all that is not above, there is room for the value itself. -/
theorem exists_succ (hpath : h.Above v path) {n : Nat}
    (hn : h.arrays.size + h.objects.size < n + path.length) :
    ∃ m, n = m + 1 ∧ h.arrays.size + h.objects.size < m + (v :: path).length := by
  have hle := hpath.length_le
  refine ⟨n - 1, by omega, ?_⟩
  rw [List.length_cons]
  omega

theorem not_mem (hpath : h.Above v path) (hv : h.Data P v) : v ∉ path :=
  fun hmem => hv.not_inside_self (hpath.inside v hmem)

/-- Data is not met again below itself. -/
theorem findIdx?_eq_none (hpath : h.Above v path) (hv : h.Data P v)
    (hc : v.isContainer = true) : path.findIdx? (Value.same v) = none := by
  refine List.findIdx?_eq_none_iff.mpr fun d hd => ?_
  by_contra hsame
  rw [Bool.not_eq_false, Value.same_eq_true_iff hc] at hsame
  exact hpath.not_mem hv (hsame ▸ hd)

theorem cons_of_not_inside_self (hpath : h.Above v path) (hknown : v ∈ h.containers)
    (hacyclic : ¬ Relation.TransGen h.Contains v v) (hw : h.Contains v w) :
    h.Above w (v :: path) := by
  refine ⟨List.nodup_cons.mpr ⟨fun hmem => hacyclic (hpath.inside v hmem), hpath.nodup⟩, ?_, ?_⟩
  · exact List.cons_subset.mpr ⟨hknown, hpath.known⟩
  · intro c hc
    rcases List.mem_cons.mp hc with rfl | hc
    · exact .single hw
    · exact (hpath.inside c hc).tail hw

theorem cons (hpath : h.Above v path) (hv : h.Data P v) (hw : h.Contains v w) :
    h.Above w (v :: path) :=
  hpath.cons_of_not_inside_self (hv.mem_containers hw.isContainer) hv.not_inside_self hw

end Above

/-! ## acyclic values -/

/-- Every container that the value reaches is known, and none is inside itself. -/
def Acyclic (h : Heap) (v : Value) : Prop :=
  ∀ w, Relation.ReflTransGen h.Contains v w →
    (w.isContainer = true → w ∈ h.containers) ∧ ¬ Relation.TransGen h.Contains w w

theorem Acyclic.of_contains {v w : Value} (hv : h.Acyclic v) (hw : h.Contains v w) :
    h.Acyclic w :=
  fun x hx => hv x (.head hw hx)

theorem Data.of_reaches {v w : Value} (hv : h.Data P v)
    (hw : Relation.ReflTransGen h.Contains v w) : h.Data P w := by
  induction hw with
  | refl => exact hv
  | tail _ hlast ih => exact ih.of_contains hlast

theorem data_of_acyclic {v : Value} {n : Nat} {path : List Value} (hv : h.Acyclic v)
    (hleaves : ∀ w, Relation.ReflTransGen h.Contains v w → w.isContainer = false → P w)
    (hpath : h.Above v path) (hn : h.arrays.size + h.objects.size < n + path.length) :
    h.Data P v := by
  -- The induction is on the room that is left below the path.
  induction n generalizing v path with
  | zero =>
    have hle := hpath.length_le
    omega
  | succ n ih =>
    obtain ⟨hknown, hself⟩ := hv v .refl
    have hcontents : ∀ w, h.Contains v w → h.Data P w := by
      intro w hw
      have hbelow := hpath.cons_of_not_inside_self (hknown hw.isContainer) hself hw
      refine ih (hv.of_contains hw) (fun x hx => hleaves x (.head hw hx)) hbelow ?_
      rw [List.length_cons]
      omega
    cases v with
    | array r =>
      have hr : r < h.arrays.size := by simpa [containers] using hknown rfl
      exact .array hr fun w hw => hcontents w (.item hw)
    | object r =>
      have hr : r < h.objects.size := by simpa [containers] using hknown rfl
      exact .object hr fun p hp => hcontents p.2 (.field hp)
    | _ => exact .leaf rfl (hleaves _ .refl rfl)

/-- **Data is what is acyclic and has leaves of the right kind.** -/
theorem data_iff {v : Value} :
    h.Data P v ↔ h.Acyclic v ∧
      ∀ w, Relation.ReflTransGen h.Contains v w → w.isContainer = false → P w := by
  constructor
  · intro hv
    refine ⟨fun w hw => ?_, fun w hw hleaf => ?_⟩
    · exact ⟨(hv.of_reaches hw).mem_containers, (hv.of_reaches hw).not_inside_self⟩
    · cases hv.of_reaches hw with
      | leaf _ hP => exact hP
      | array => cases hleaf
      | object => cases hleaf
  · rintro ⟨hv, hleaves⟩
    refine data_of_acyclic (n := h.arrays.size + h.objects.size + 1) hv hleaves (.nil v) ?_
    rw [List.length_nil]
    omega

end Heap

end TemplateExpr
