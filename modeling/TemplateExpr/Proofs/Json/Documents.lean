import Mathlib.Data.List.Forall2
import TemplateExpr.Json.Convert
import TemplateExpr.Proofs.Heap.Data
import TemplateExpr.Proofs.Number.Bits

/-!
# The documents of data

On data, the document of a container is made of the documents of its contents, whatever else is in
the heap. Leaves without a form of their own might as well be null.

* `Value.HasJson`               the leaves that documents have;
* `Heap.toJson_array`, `Heap.toJson_object`   the documents of containers;
* `Heap.Alike`                  the same contents, leaf by leaf;
* `Heap.alike_of_toJson_eq`     a document determines its data up to the references;
* `Heap.equals_of_alike`        alike values are equal;
* `Heap.toJson_nulled`          the leaves that documents have not, as null.
-/

namespace TemplateExpr

/-- Null, booleans, integers, finite floats and texts. -/
inductive Value.HasJson : Value → Prop where
  | null : HasJson .null
  | bool (b) : HasJson (.bool b)
  | int (n) : HasJson (.int n)
  | float {x} : x.isFinite = true → HasJson (.float x)
  | str (s) : HasJson (.str s)

theorem Value.HasJson.same_self {v : Value} (hv : v.HasJson) : v.same v = true := by
  cases hv with
  | @float x hx =>
    have hnan : x.toModel.unpack ≠ .notANumber := by
      intro hunpack
      have hfinite : x.toModel.unpack.isFinite = true := hx
      rw [hunpack] at hfinite
      cases hfinite
    exact Binary64.beq_self (Binary64.not_isNaN_of_unpack hnan)
  | _ => simp [same]

/-! ## lists side by side -/

section
variable {α β γ : Type} {R : α → β → Prop}

theorem forall₂_of_map_eq {f : α → γ} {g : β → γ} {xs : List α} {ys : List β}
    (h : xs.map f = ys.map g) (hR : ∀ a ∈ xs, ∀ b ∈ ys, f a = g b → R a b) :
    List.Forall₂ R xs ys := by
  induction xs generalizing ys with
  | nil =>
    rw [List.map_eq_nil_iff.mp h.symm]
    exact .nil
  | cons x xs ih =>
    cases ys with
    | nil => cases h
    | cons y ys =>
      obtain ⟨hhead, htail⟩ := List.cons.inj h
      refine .cons (hR x List.mem_cons_self y List.mem_cons_self hhead) (ih htail ?_)
      exact fun a ha b hb => hR a (List.mem_cons_of_mem _ ha) b (List.mem_cons_of_mem _ hb)

/-- Names and contents of fields may be compared apart. -/
theorem forall₂_pairs_iff {xs : Fields α} {ys : Fields β} :
    List.Forall₂ (fun p q => p.1 = q.1 ∧ R p.2 q.2) xs ys ↔
      xs.names = ys.names ∧ List.Forall₂ R (xs.map Prod.snd) (ys.map Prod.snd) := by
  induction xs generalizing ys with
  | nil => cases ys <;> simp [Fields.names]
  | cons x xs ih =>
    cases ys with
    | nil => simp [Fields.names]
    | cons y ys =>
      rw [List.forall₂_cons, ih]
      simp only [Fields.names, List.map_cons, List.cons.injEq, List.forall₂_cons]
      tauto

theorem isEqv_of_forall₂ {S : α → α → Prop} {eqv : α → α → Bool} {xs ys : List α}
    (h : List.Forall₂ S xs ys) (hS : ∀ a ∈ xs, ∀ b, S a b → eqv a b = true) :
    xs.isEqv ys eqv = true := by
  induction h with
  | nil => rfl
  | @cons x y xs ys hxy _ ih =>
    rw [List.isEqv, Bool.and_eq_true]
    refine ⟨hS x List.mem_cons_self y hxy, ih ?_⟩
    exact fun a ha => hS a (List.mem_cons_of_mem _ ha)

end

namespace Snapshot

theorem leafJson_ne_container (v : Value) (items : List Json) (fields : List (String × Json)) :
    leafJson v ≠ .array items ∧ leafJson v ≠ .object fields := by
  cases v with
  | float x =>
    rw [leafJson]
    split <;> simp
  | _ => simp [leafJson]

theorem leafJson_float {x : Float} (hx : x.isFinite = true) : leafJson (.float x) = .float x :=
  if_pos hx

theorem leafJson_injective {v w : Value} (hv : v.HasJson) (hw : w.HasJson)
    (heq : leafJson v = leafJson w) : v = w := by
  cases hv with
  | float hx =>
    rw [leafJson_float hx] at heq
    cases hw with
    | float hy =>
      rw [leafJson_float hy] at heq
      rw [Json.float.inj heq]
    | _ => cases heq
  | int n =>
    cases hw with
    | float hy =>
      rw [leafJson_float hy] at heq
      cases heq
    | int m => rw [Int64.toInt_inj.mp (Json.int.inj heq)]
    | _ => cases heq
  | _ =>
    cases hw with
    | float hy =>
      rw [leafJson_float hy] at heq
      cases heq
    | _ => cases heq <;> rfl

end Snapshot

theorem Snapshot.itemsToJson_eq_map (items : List Snapshot) :
    itemsToJson items = items.map toJson := by
  induction items with
  | nil => rw [itemsToJson]; rfl
  | cons item items ih => rw [itemsToJson, ih, List.map_cons]

theorem Snapshot.fieldsToJson_eq_map (fields : List (String × Snapshot)) :
    fieldsToJson fields = fields.map fun p => (p.1, p.2.toJson) := by
  induction fields with
  | nil => rw [fieldsToJson]; rfl
  | cons field fields ih => rw [fieldsToJson, ih, List.map_cons]

namespace Heap

variable {P : Value → Prop} {h h' : Heap}

/-! ## one level -/

theorem toJson_unfold_leaf (n : Nat) (path : List Value) {v : Value}
    (hleaf : v.isContainer = false) :
    (h.unfold .data (n + 1) path v).toJson = Snapshot.leafJson v := by
  cases v <;> first | rfl | cases hleaf

theorem toJson_unfold_array (h : Heap) (n : Nat) (path : List Value) (r : Nat) :
    (h.unfold .data (n + 1) path (.array r)).toJson =
      match path.findIdx? (Value.same (.array r)) with
      | some _ => .null
      | none => .array ((h.items r).toList.map fun v =>
          (h.unfold .data n (.array r :: path) v).toJson) := by
  rw [Heap.unfold]
  cases path.findIdx? (Value.same (.array r)) with
  | some level => rfl
  | none =>
    show Snapshot.toJson (.array r _) = _
    rw [Snapshot.toJson, Snapshot.itemsToJson_eq_map, List.map_map]
    rfl

theorem toJson_unfold_object (h : Heap) (n : Nat) (path : List Value) (r : Nat) :
    (h.unfold .data (n + 1) path (.object r)).toJson =
      match path.findIdx? (Value.same (.object r)) with
      | some _ => .null
      | none => .object ((h.fields r).map fun p =>
          (p.1, (h.unfold .data n (.object r :: path) p.2).toJson)) := by
  rw [Heap.unfold]
  cases path.findIdx? (Value.same (.object r)) with
  | some level => rfl
  | none =>
    show Snapshot.toJson (.object r _) = _
    rw [Snapshot.toJson, Snapshot.fieldsToJson_eq_map, List.map_map]
    rfl

/-! ## documents of containers -/

/-- How deep the unfolding may go and what stands above makes no difference, as long as there is
room for the containers that are not above. -/
theorem toJson_unfold_eq {v : Value} (hv : h.Data P v) {n n' : Nat} {path path' : List Value}
    (hpath : h.Above v path) (hpath' : h.Above v path')
    (hn : h.arrays.size + h.objects.size < n + path.length)
    (hn' : h.arrays.size + h.objects.size < n' + path'.length) :
    (h.unfold .data n path v).toJson = (h.unfold .data n' path' v).toJson := by
  induction hv generalizing n n' path path' with
  | leaf hleaf _ =>
    obtain ⟨m, rfl, _⟩ := hpath.exists_succ hn
    obtain ⟨m', rfl, _⟩ := hpath'.exists_succ hn'
    rw [toJson_unfold_leaf m path hleaf, toJson_unfold_leaf m' path' hleaf]
  | @array r hr hitems ih =>
    have hdata : h.Data P (.array r) := .array hr hitems
    obtain ⟨m, rfl, hm⟩ := hpath.exists_succ hn
    obtain ⟨m', rfl, hm'⟩ := hpath'.exists_succ hn'
    rw [toJson_unfold_array, toJson_unfold_array, hpath.findIdx?_eq_none hdata rfl,
      hpath'.findIdx?_eq_none hdata rfl]
    refine congrArg Json.array (List.map_congr_left fun w hw => ?_)
    exact ih w hw (hpath.cons hdata (.item hw)) (hpath'.cons hdata (.item hw)) hm hm'
  | @object r hr hfields ih =>
    have hdata : h.Data P (.object r) := .object hr hfields
    obtain ⟨m, rfl, hm⟩ := hpath.exists_succ hn
    obtain ⟨m', rfl, hm'⟩ := hpath'.exists_succ hn'
    rw [toJson_unfold_object, toJson_unfold_object, hpath.findIdx?_eq_none hdata rfl,
      hpath'.findIdx?_eq_none hdata rfl]
    refine congrArg Json.object (List.map_congr_left fun p hp => congrArg (Prod.mk p.1) ?_)
    exact ih p hp (hpath.cons hdata (.field hp)) (hpath'.cons hdata (.field hp)) hm hm'

theorem toJson_leaf (h : Heap) {v : Value} (hleaf : v.isContainer = false) :
    h.toJson v = Snapshot.leafJson v :=
  toJson_unfold_leaf _ [] hleaf

theorem toJson_array {r : Nat} (hdata : h.Data P (.array r)) :
    h.toJson (.array r) = .array ((h.items r).toList.map h.toJson) := by
  have htop : h.Above (.array r) [] := .nil _
  rw [toJson, snapshot, toJson_unfold_array, htop.findIdx?_eq_none hdata rfl]
  refine congrArg Json.array (List.map_congr_left fun w hw => ?_)
  refine toJson_unfold_eq (hdata.of_contains (.item hw)) (htop.cons hdata (.item hw)) (.nil w) ?_ ?_
  · rw [List.length_singleton]
    omega
  · omega

theorem toJson_object {r : Nat} (hdata : h.Data P (.object r)) :
    h.toJson (.object r) = .object ((h.fields r).map fun p => (p.1, h.toJson p.2)) := by
  have htop : h.Above (.object r) [] := .nil _
  rw [toJson, snapshot, toJson_unfold_object, htop.findIdx?_eq_none hdata rfl]
  refine congrArg Json.object (List.map_congr_left fun p hp => congrArg (Prod.mk p.1) ?_)
  refine toJson_unfold_eq (hdata.of_contains (.field hp)) (htop.cons hdata (.field hp)) (.nil p.2)
    ?_ ?_
  · rw [List.length_singleton]
    omega
  · omega

/-- A document does not change with what is added to the heap. -/
theorem Data.toJson_eq {v : Value} (hv : h.Data P v) (hext : h.Extends h') :
    h'.toJson v = h.toJson v := by
  induction hv with
  | leaf hleaf _ => rw [toJson_leaf h' hleaf, toJson_leaf h hleaf]
  | @array r hr hitems ih =>
    have hdata : h.Data P (.array r) := .array hr hitems
    rw [toJson_array (hdata.mono hext), toJson_array hdata, hext.items_eq r hr]
    exact congrArg Json.array (List.map_congr_left ih)
  | @object r hr hfields ih =>
    have hdata : h.Data P (.object r) := .object hr hfields
    rw [toJson_object (hdata.mono hext), toJson_object hdata, hext.fields_eq r hr]
    exact congrArg Json.object (List.map_congr_left fun p hp => congrArg (Prod.mk p.1) (ih p hp))

/-! ## values with one document -/

/-- The containers of the one hold in their places what those of the other hold, and the leaves are
the same. -/
inductive Alike (h : Heap) : Value → Value → Prop where
  | leaf {v} : v.isContainer = false → Alike h v v
  | array {r s} : List.Forall₂ (Alike h) (h.items r).toList (h.items s).toList →
      Alike h (.array r) (.array s)
  | object {r s} : (h.fields r).names = (h.fields s).names →
      List.Forall₂ (Alike h) ((h.fields r).map Prod.snd) ((h.fields s).map Prod.snd) →
      Alike h (.object r) (.object s)

theorem alike_of_toJson_eq {v w : Value} (hv : h.Data Value.HasJson v)
    (hw : h.Data Value.HasJson w) (heq : h.toJson v = h.toJson w) : h.Alike v w := by
  induction hv generalizing w with
  | @leaf v hleaf hjson =>
    rw [toJson_leaf h hleaf] at heq
    cases hw with
    | leaf hleaf' hjson' =>
      rw [toJson_leaf h hleaf'] at heq
      rw [← Snapshot.leafJson_injective hjson hjson' heq]
      exact .leaf hleaf
    | array hs hitems =>
      rw [toJson_array (.array hs hitems)] at heq
      exact absurd heq (Snapshot.leafJson_ne_container v _ []).1
    | object hs hfields =>
      rw [toJson_object (.object hs hfields)] at heq
      exact absurd heq (Snapshot.leafJson_ne_container v [] _).2
  | @array r hr hitems ih =>
    rw [toJson_array (.array hr hitems)] at heq
    cases hw with
    | @leaf w hleaf _ =>
      rw [toJson_leaf h hleaf] at heq
      exact absurd heq.symm (Snapshot.leafJson_ne_container w _ []).1
    | array hs hitems' =>
      rw [toJson_array (.array hs hitems')] at heq
      refine .array (forall₂_of_map_eq (Json.array.inj heq) fun a ha b hb hab => ?_)
      exact ih a ha (hitems' b hb) hab
    | object hs hfields =>
      rw [toJson_object (.object hs hfields)] at heq
      cases heq
  | @object r hr hfields ih =>
    rw [toJson_object (.object hr hfields)] at heq
    cases hw with
    | @leaf w hleaf _ =>
      rw [toJson_leaf h hleaf] at heq
      exact absurd heq.symm (Snapshot.leafJson_ne_container w [] _).2
    | array hs hitems =>
      rw [toJson_array (.array hs hitems)] at heq
      cases heq
    | object hs hfields' =>
      rw [toJson_object (.object hs hfields')] at heq
      have hpairs : List.Forall₂ (fun p q : String × Value => p.1 = q.1 ∧ h.Alike p.2 q.2) _ _ :=
        forall₂_of_map_eq (Json.object.inj heq) fun p hp q hq hpq =>
          ⟨(Prod.mk.inj hpq).1, ih p hp (hfields' q hq) (Prod.mk.inj hpq).2⟩
      obtain ⟨hnames, hcontents⟩ := forall₂_pairs_iff.mp hpairs
      exact .object hnames hcontents

/-- Alike data is equal down to the depth of the data. -/
theorem equalsTo_of_alike {v w : Value} (hv : h.Data Value.HasJson v) (halike : h.Alike v w)
    {n : Nat} {path : List Value} (hpath : h.Above v path)
    (hn : h.arrays.size + h.objects.size < n + path.length) : h.equalsTo n v w = true := by
  induction hv generalizing w n path with
  | @leaf v hleaf hjson =>
    obtain ⟨m, rfl, _⟩ := hpath.exists_succ hn
    cases halike with
    | leaf _ =>
      have hsame := hjson.same_self
      cases v with
      | array r => cases hleaf
      | object r => cases hleaf
      | _ => exact hsame
    | array _ => cases hleaf
    | object _ _ => cases hleaf
  | @array r hr hitems ih =>
    obtain ⟨m, rfl, hm⟩ := hpath.exists_succ hn
    cases halike with
    | leaf hleaf => cases hleaf
    | @array _ s hforall =>
      show (r == s || (h.items r).toList.isEqv (h.items s).toList (h.equalsTo m)) = true
      refine Bool.or_eq_true_iff.mpr (.inr (isEqv_of_forall₂ hforall fun a ha b hab => ?_))
      exact ih a ha hab (hpath.cons (.array hr hitems) (.item ha)) hm
  | @object r hr hfields ih =>
    obtain ⟨m, rfl, hm⟩ := hpath.exists_succ hn
    cases halike with
    | leaf hleaf => cases hleaf
    | @object _ s hnames hcontents =>
      show (r == s || (h.fields r).isEqv (h.fields s) fun a b =>
        a.1 == b.1 && h.equalsTo m a.2 b.2) = true
      have hpairs := forall₂_pairs_iff.mpr ⟨hnames, hcontents⟩
      refine Bool.or_eq_true_iff.mpr (.inr (isEqv_of_forall₂ hpairs fun p hp q hpq => ?_))
      rw [Bool.and_eq_true, beq_iff_eq]
      exact ⟨hpq.1, ih p hp hpq.2 (hpath.cons (.object hr hfields) (.field hp)) hm⟩

theorem equals_of_alike {v w : Value} (hv : h.Data Value.HasJson v) (halike : h.Alike v w) :
    h.equals v w = true := by
  refine equalsTo_of_alike hv halike (.nil v) ?_
  have harrays := Nat.le_mul_self h.arrays.size
  have hobjects := Nat.le_mul_self h.objects.size
  rw [pairs, List.length_nil]
  omega

end Heap

/-! ## leaves without a form -/

/-- Functions, host objects and floats that are not finite become null. -/
def Value.nulled : Value → Value
  | function _ | host _ | overlay .. => null
  | float x => if x.isFinite then float x else null
  | v => v

theorem Snapshot.leafJson_nulled (v : Value) : leafJson v.nulled = leafJson v := by
  cases v with
  | float x =>
    by_cases hx : x.isFinite = true
    · simp [Value.nulled, hx]
    · simp [Value.nulled, leafJson, hx]
  | _ => rfl

theorem Value.isContainer_nulled (v : Value) : v.nulled.isContainer = v.isContainer := by
  cases v with
  | float x =>
    rw [nulled]
    split <;> rfl
  | _ => rfl

namespace Heap

/-- The heap with such leaves nulled in every container. -/
def nulled (h : Heap) : Heap :=
  { h with
    arrays := h.arrays.map fun items => items.map Value.nulled
    objects := h.objects.map fun fields => fields.map fun p => (p.1, p.2.nulled) }

theorem items_nulled (h : Heap) (r : Nat) : h.nulled.items r = (h.items r).map Value.nulled := by
  show (h.arrays.map _)[r]?.getD #[] = (h.arrays[r]?.getD #[]).map _
  rw [Array.getElem?_map]
  cases h.arrays[r]? <;> simp

theorem fields_nulled (h : Heap) (r : Nat) :
    h.nulled.fields r = (h.fields r).map fun p => (p.1, p.2.nulled) := by
  show (h.objects.map _)[r]?.getD [] = (h.objects[r]?.getD []).map _
  rw [Array.getElem?_map]
  cases h.objects[r]? <;> rfl

theorem toJson_unfold_nulled (h : Heap) (n : Nat) (path : List Value) (v : Value) :
    (h.nulled.unfold .data n path v.nulled).toJson = (h.unfold .data n path v).toJson := by
  induction n generalizing path v with
  | zero => rfl
  | succ n ih =>
    by_cases hleaf : v.isContainer = false
    · rw [toJson_unfold_leaf n path hleaf,
        toJson_unfold_leaf n path (v.isContainer_nulled.trans hleaf), Snapshot.leafJson_nulled]
    · cases v with
      | array r =>
        show (h.nulled.unfold .data (n + 1) path (.array r)).toJson = _
        rw [toJson_unfold_array, toJson_unfold_array, items_nulled, Array.toList_map, List.map_map]
        simp only [Function.comp_def, ih]
      | object r =>
        show (h.nulled.unfold .data (n + 1) path (.object r)).toJson = _
        rw [toJson_unfold_object, toJson_unfold_object, fields_nulled, List.map_map]
        simp only [Function.comp_def, ih]
      | _ => exact absurd rfl hleaf

theorem toJson_nulled (h : Heap) (v : Value) : h.nulled.toJson v.nulled = h.toJson v := by
  have hdepth : h.nulled.arrays.size + h.nulled.objects.size =
      h.arrays.size + h.objects.size := by
    simp [nulled]
  rw [toJson, snapshot, hdepth]
  exact toJson_unfold_nulled h _ [] v

end Heap

end TemplateExpr
