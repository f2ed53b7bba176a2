import TemplateExpr.Proofs.Expr.Totality

/-!
# Arrays as sequences

With a computed key an array is read and written as a sequence over all integers, which is null
outside its length. A number names the same place whether it is an integer or a float.

* `Value.itemAt`            the sequence of some items;
* `Value.itemAt_setItem`    one place of it is written;
* `Value.Replaced`          a store in which one place of an array was written;
* `Value.keyed_sequence`    which writes succeed, what they change, and what is read.
-/

namespace TemplateExpr

namespace Value

/-! ## places -/

theorem asIndex?_eq_some_iff {key : Value} {i : Nat} :
    key.asIndex? = some i ↔ ∃ n, key.asInt? = some n ∧ n.toInt = i := by
  rw [asIndex?, Option.bind_eq_some_iff]
  refine exists_congr fun n => and_congr_right fun _ => ?_
  by_cases hneg : n < 0
  · have hlt : n.toInt < 0 := Int64.lt_iff_toInt_lt.mp hneg
    rw [if_pos hneg]
    constructor
    · intro hnone
      cases hnone
    · intro hn
      omega
  · have hpos : ¬ n.toInt < 0 := fun hlt => hneg (Int64.lt_iff_toInt_lt.mpr hlt)
    rw [if_neg hneg, Option.some.injEq]
    omega

/-- Some items as a sequence over all integers. -/
def itemAt (items : Array Value) : Int → Value
  | .ofNat i => items[i]?.getD null
  | .negSucc _ => null

theorem itemAt_of_lt {items : Array Value} {i : Nat} (hi : i < items.size) :
    items[i]? = some (itemAt items i) := by
  show _ = some (items[i]?.getD null)
  rw [Array.getElem?_eq_getElem hi, Option.getD_some]

theorem itemAt_of_outside {items : Array Value} {n : Int} (hn : n < 0 ∨ items.size ≤ n) :
    itemAt items n = null := by
  cases n with
  | negSucc k => rfl
  | ofNat i =>
    have hi : items.size ≤ i := by
      rw [Int.ofNat_eq_natCast] at hn
      omega
    rw [itemAt, Array.getElem?_eq_none hi, Option.getD_none]

theorem size_setItem (items : Array Value) (i : Nat) (v : Value) :
    (setItem items i v).size = max items.size (i + 1) := by
  rw [setItem, Array.size_setIfInBounds, Array.size_append, Array.size_replicate]
  omega

/-- Padding is not seen in the sequence. -/
theorem itemAt_setItem (items : Array Value) (i : Nat) (v : Value) (n : Int) :
    itemAt (setItem items i v) n = if n = i then v else itemAt items n := by
  cases n with
  | negSucc k => rfl
  | ofNat j =>
    rw [itemAt, itemAt, getElem?_setItem]
    simp only [Int.ofNat_eq_natCast, Int.natCast_inj]
    by_cases hj : j = i
    · rw [if_pos hj, if_pos hj, Option.getD_some]
    · rw [if_neg hj, if_neg hj]
      by_cases hold : j < items.size
      · rw [if_pos hold]
      · -- behind the old end an item is a null of the padding, or there is none
        rw [if_neg hold, Array.getElem?_eq_none (Nat.not_lt.mp hold)]
        split <;> rfl

/-! ## reading -/

variable {W : Type} (env : Embedding W) {ref : Nat} {s : Store W} {key : Value}

theorem getKeyed_of_number {n : Int64} (hkey : key.asInt? = some n) :
    (array ref).getKeyed env key s = .ok (itemAt (s.heap.items ref) n.toInt) s := by
  have hitem : (key.asIndex?.bind ((s.heap.items ref)[·]?)).getD null =
      itemAt (s.heap.items ref) n.toInt := by
    cases hindex : key.asIndex? with
    | some i =>
      obtain ⟨m, hm, hi⟩ := asIndex?_eq_some_iff.mp hindex
      obtain rfl : n = m := Option.some.inj (hkey.symm.trans hm)
      rw [hi]
      rfl
    | none =>
      have hneg : n.toInt < 0 := by
        by_contra hpos
        have hsome : key.asIndex? = some n.toInt.toNat :=
          asIndex?_eq_some_iff.mpr ⟨n, hkey, by omega⟩
        rw [hindex] at hsome
        cases hsome
      rw [itemAt_of_outside (.inl hneg)]
      rfl
  rw [← hitem]
  simp only [getKeyed, hkey]
  rfl

theorem getKeyed_of_name (hkey : key.asInt? = none) :
    (array ref).getKeyed env key s =
      .ok (if s.heap.text key = "length" then .ofNat (s.heap.items ref).size else null) s := by
  simp only [getKeyed, hkey]
  exact get_apply env rfl s (s.heap.text key)

/-- The text of an acyclic key is nowhere cut off. -/
theorem whole_of_acyclic {h : Heap} (hkey : h.Acyclic key) : (h.snapshot .arrays key).Whole := by
  have hdata : h.Data (fun _ => True) key := Heap.data_iff.mpr ⟨hkey, fun _ _ _ => trivial⟩
  refine Heap.whole_snapshot (fun w hleaf _ => ?_) hdata
  cases w with
  | array r => cases hleaf
  | _ => rfl

/-- Every key reads something: an item, the length, or null. -/
theorem exists_getKeyed (s : Store W) (ref : Nat) (key : Value) :
    ∃ w, (array ref).getKeyed env key s = .ok w s ∧
      (∀ i : Nat, ∀ n, key.asInt? = some n → n.toInt = i → i < (s.heap.items ref).size →
        (s.heap.items ref)[i]? = some w) ∧
      (∀ n, key.asInt? = some n → n.toInt < 0 ∨ (s.heap.items ref).size ≤ n.toInt → w = null) ∧
      (key.asInt? = none →
        w = if s.heap.text key = "length" then .ofNat (s.heap.items ref).size else null) := by
  cases hkey : key.asInt? with
  | none =>
    refine ⟨_, getKeyed_of_name env hkey, ?_, ?_, fun _ => rfl⟩
    · rintro i n ⟨⟩
    · rintro n ⟨⟩
  | some n =>
    refine ⟨_, getKeyed_of_number env hkey, ?_, ?_, ?_⟩
    · rintro i _ ⟨⟩ hi hlt
      rw [hi]
      exact itemAt_of_lt hlt
    · rintro _ ⟨⟩ hout
      exact itemAt_of_outside hout
    · rintro ⟨⟩

/-! ## writing -/

/-- A write sets one item, or fails and changes nothing. -/
theorem setKeyed_cases (s : Store W) (ref : Nat) (key v : Value) :
    (∃ (i : Nat) (n : Int64), key.asInt? = some n ∧ n.toInt = i ∧
      i ≤ (s.heap.items ref).size + maxArrayGap ∧
      (array ref).setKeyed env key v s =
        .ok () { s with heap := s.heap.setItems ref (setItem (s.heap.items ref) i v) }) ∨
    (¬ ∃ n, key.asInt? = some n ∧ 0 ≤ n.toInt ∧
        n.toInt ≤ (s.heap.items ref).size + maxArrayGap) ∧
      ∃ e, (array ref).setKeyed env key v s = .error e s := by
  by_cases hnear : ∃ n, key.asInt? = some n ∧ 0 ≤ n.toInt ∧
      n.toInt ≤ (s.heap.items ref).size + maxArrayGap
  · obtain ⟨n, hn, hpos, hle⟩ := hnear
    have hi : n.toInt = n.toInt.toNat := by omega
    refine .inl ⟨n.toInt.toNat, n, hn, hi, by omega, ?_⟩
    have hindex : key.asIndex? = some n.toInt.toNat := asIndex?_eq_some_iff.mpr ⟨n, hn, hi⟩
    exact setKeyed_of_near env s hindex (by omega) v
  · refine .inr ⟨hnear, setKeyed_of_far env s (fun i hindex => ?_) v⟩
    obtain ⟨n, hn, hi⟩ := asIndex?_eq_some_iff.mp hindex
    by_contra hle
    exact hnear ⟨n, hn, by omega, by omega⟩

/-- The store `t` is `s` with `v` written to the place `n` of an array. -/
structure Replaced (s t : Store W) (ref : Nat) (n : Int64) (v : Value) : Prop where
  /-- Every key that names the place reads the value. -/
  value : ∀ key, key.asInt? = some n → (array ref).getKeyed env key t = .ok v t
  /-- Every key that names another place reads as before. -/
  others : ∀ key m, key.asInt? = some m → m ≠ n →
    ∃ w, (array ref).getKeyed env key s = .ok w s ∧ (array ref).getKeyed env key t = .ok w t
  size : ((t.heap.items ref).size : Int) = max ((s.heap.items ref).size : Int) (n.toInt + 1)
  kept : ∀ j : Nat, j < (s.heap.items ref).size → (j : Int) ≠ n.toInt →
    (t.heap.items ref)[j]? = (s.heap.items ref)[j]?
  padding : ∀ j : Nat, (s.heap.items ref).size ≤ j → (j : Int) < n.toInt →
    (t.heap.items ref)[j]? = some null
  arrays : ∀ r, r ≠ ref → t.heap.items r = s.heap.items r
  objects : t.heap.objects = s.heap.objects
  world : t.world = s.world

theorem replaced_setItems (hknown : ref < s.heap.arrays.size) {n : Int64} {i : Nat}
    (hn : n.toInt = i) (v : Value) :
    Replaced env s { s with heap := s.heap.setItems ref (setItem (s.heap.items ref) i v) }
      ref n v := by
  have hitems := s.heap.items_setItems_self (setItem (s.heap.items ref) i v) hknown
  constructor
  case value =>
    intro k hk
    rw [getKeyed_of_number env hk, hitems, itemAt_setItem, if_pos hn]
  case others =>
    intro k m hk hne
    refine ⟨itemAt (s.heap.items ref) m.toInt, getKeyed_of_number env hk, ?_⟩
    have hother : m.toInt ≠ i := fun heq => hne (Int64.toInt_inj.mp (heq.trans hn.symm))
    rw [getKeyed_of_number env hk, hitems, itemAt_setItem, if_neg hother]
  case size =>
    rw [hitems, size_setItem, hn]
    omega
  case kept =>
    intro j hj hne
    rw [hitems, getElem?_setItem, if_neg (by omega), if_pos hj]
  case padding =>
    intro j hj hlt
    rw [hitems, getElem?_setItem, if_neg (by omega), if_neg (by omega), if_pos (by omega)]
  case arrays => exact fun r hr => s.heap.items_setItems_of_ne _ hr
  case objects => rfl
  case world => rfl

/-! ## the laws of keyed access -/

/-- **With computed keys an array is a bounded sequence, extended by null.** A write succeeds where
the key is a number from zero to a fixed distance past the end. It then changes one place and at
most pads the array with nulls; else it changes nothing. Reading with an acyclic key has a value,
which is null where the key is a number outside the array. -/
theorem keyed_sequence (hknown : ref < s.heap.arrays.size) (key v : Value) :
    ((∃ t, (array ref).setKeyed env key v s = .ok () t) ↔
      ∃ n, key.asInt? = some n ∧ 0 ≤ n.toInt ∧ n.toInt ≤ (s.heap.items ref).size + 65536) ∧
    (∀ t, (array ref).setKeyed env key v s = .ok () t →
      ∃ n, key.asInt? = some n ∧ Replaced env s t ref n v) ∧
    (∀ e t, (array ref).setKeyed env key v s = .error e t → t = s) ∧
    (s.heap.Acyclic key →
      (s.heap.snapshot .arrays key).Whole ∧
      ∃ w, (array ref).getKeyed env key s = .ok w s ∧
        (∀ i : Nat, ∀ n, key.asInt? = some n → n.toInt = i → i < (s.heap.items ref).size →
          (s.heap.items ref)[i]? = some w) ∧
        (∀ n, key.asInt? = some n → n.toInt < 0 ∨ (s.heap.items ref).size ≤ n.toInt → w = null) ∧
        (key.asInt? = none →
          w = if s.heap.text key = "length" then .ofNat (s.heap.items ref).size else null)) := by
  have hreads := fun hacyclic : s.heap.Acyclic key =>
    And.intro (whole_of_acyclic hacyclic) (exists_getKeyed env s ref key)
  rcases setKeyed_cases env s ref key v with ⟨i, n, hn, hi, hle, hok⟩ | ⟨hfar, e, he⟩
  · rw [maxArrayGap] at hle
    rw [hok]
    refine ⟨iff_of_true ⟨_, rfl⟩ ⟨n, hn, by omega, by omega⟩, ?_, ?_, hreads⟩
    · rintro t ⟨⟩
      exact ⟨n, hn, replaced_setItems env hknown hi v⟩
    · rintro e t ⟨⟩
  · rw [he]
    refine ⟨iff_of_false ?_ hfar, ?_, ?_, hreads⟩
    · rintro ⟨t, ⟨⟩⟩
    · rintro t ⟨⟩
    · rintro _ t ⟨⟩
      rfl

/-- A float writes the item that the integer reads, behind two nulls. The array takes no write past
its bound, and it can be a key for itself. -/
theorem keyed_sequence_padded :
    0 < Expr.nestedStore.heap.arrays.size ∧ Expr.nestedStore.heap.Acyclic (.array 0) ∧
      (∃ t, (array 0).setKeyed .none (.float 3.0) (.int 7) Expr.nestedStore = .ok () t ∧
        (array 0).getKeyed .none (.int 3) t = .ok (.int 7) t ∧ (t.heap.items 0).size = 4 ∧
        (t.heap.items 0)[0]? = some (.int 1) ∧ (t.heap.items 0)[2]? = some null) ∧
      (¬ ∃ t, (array 0).setKeyed .none (.int 65538) (.int 7) Expr.nestedStore = .ok () t) ∧
      ∃ w, (array 0).getKeyed .none (.array 0) Expr.nestedStore = .ok w Expr.nestedStore := by
  have hknown : 0 < Expr.nestedStore.heap.arrays.size := by decide
  have hdata : Expr.nestedStore.heap.PlainData (.array 0) := by
    refine .array hknown ?_
    show ∀ v ∈ [Value.int 1], _
    exact List.forall_mem_singleton.mpr (.leaf rfl rfl)
  have hacyclic := (Heap.plainData_iff.mp hdata).1
  have hthree : (float 3.0).asInt? = some 3 := by decide +kernel
  refine ⟨hknown, hacyclic, ?_, ?_, ?_⟩
  · obtain ⟨hok, hchange, _⟩ := keyed_sequence .none hknown (.float 3.0) (.int 7)
    obtain ⟨t, ht⟩ := hok.mpr ⟨3, hthree, by decide, by decide⟩
    obtain ⟨n, hn, hreplaced⟩ := hchange t ht
    obtain rfl : 3 = n := Option.some.inj (hthree.symm.trans hn)
    refine ⟨t, ht, hreplaced.value (.int 3) rfl, ?_, ?_, ?_⟩
    · exact Int.ofNat_inj.mp hreplaced.size
    · exact hreplaced.kept 0 (by decide) (by decide)
    · exact hreplaced.padding 2 (by decide) (by decide)
  · rw [(keyed_sequence .none hknown (.int 65538) (.int 7)).1]
    rintro ⟨n, hn, _, hle⟩
    obtain rfl : 65538 = n := Option.some.inj hn
    exact absurd hle (by decide)
  · obtain ⟨_, _, _, hread⟩ := keyed_sequence .none hknown (.array 0) .null
    obtain ⟨_, w, hw, _⟩ := hread hacyclic
    exact ⟨w, hw⟩

end Value

end TemplateExpr
