import TemplateExpr.Proofs.Number.Rounding
import TemplateExpr.Number.Layout

/-!
# Decimals of binary64 numbers

* `toFloat_normal`     zeros at the end of a decimal do not matter;
* `toFloat_exact`      the exact decimal of a number reads back as it;
* `toFloat_shortest`   and so does the shortest.
-/

namespace TemplateExpr.Decimal

-- Powers are those of core, also where another power of naturals is in scope.
attribute [local instance (high)] instPowNat

open Binary64

theorem ratio_snd_pos (d : Decimal) : 0 < d.ratio.2 := by
  unfold ratio
  split
  · exact Nat.one_pos
  · exact Nat.pow_pos (by decide)

theorem ratio_fst_pos {d : Decimal} (h : d.coefficient ≠ 0) : 0 < d.ratio.1 := by
  have hc := Nat.pos_of_ne_zero h
  unfold ratio
  split
  · exact Nat.mul_pos hc (Nat.pow_pos (by decide))
  · exact hc

/-- The power of ten that a decimal lies below. -/
def place (d : Decimal) : Int := (digitCount d.coefficient : Int) + d.exponent

theorem toFloat_of_place {d : Decimal} (hc : d.coefficient ≠ 0) (hl : -400 ≤ d.place)
    (hh : d.place ≤ 400) : d.toFloat false = ofRatio false d.ratio.1 d.ratio.2 := by
  have hu : ¬ (d.coefficient = 0 ∨ d.place < underflowPlace) := by
    rw [underflowPlace]
    omega
  have ho : ¬ overflowPlace < d.place := by
    rw [overflowPlace]
    omega
  exact (if_neg hu).trans (if_neg ho)

theorem toFloat_congr {d d' : Decimal} (hc : d.coefficient ≠ 0) (hc' : d'.coefficient ≠ 0)
    (hp : d.place = d'.place) (hr : d.ratio.1 * d'.ratio.2 = d'.ratio.1 * d.ratio.2) :
    d.toFloat false = d'.toFloat false := by
  have hbits : magnitudeBits d.ratio.1 d.ratio.2 = magnitudeBits d'.ratio.1 d'.ratio.2 :=
    magnitudeBits_congr (ratio_fst_pos hc) (ratio_snd_pos d) (ratio_fst_pos hc')
      (ratio_snd_pos d') hr
  simp only [place] at hp
  simp only [toFloat, ofRatio, hc, hc', hp, false_or, hbits, Nat.pos_iff_ne_zero.mp
    (ratio_fst_pos hc), Nat.pos_iff_ne_zero.mp (ratio_fst_pos hc'), if_false]

/-! ## zeros at the end -/

theorem digitCount_mul_ten {n : Nat} (h : 0 < n) : digitCount (10 * n) = digitCount n + 1 := by
  have := Nat.toDigits_append_toDigits (b := 10) (n := n) (d := 0) (by decide) h (by decide)
  rw [Nat.add_zero] at this
  rw [digitCount, ← this, List.length_append]
  rfl

theorem toFloat_dropZero {d : Decimal} (hc : d.coefficient ≠ 0) (hz : d.coefficient % 10 = 0) :
    toFloat false ⟨d.coefficient / 10, d.exponent + 1⟩ = d.toFloat false := by
  obtain ⟨c, hcoefficient⟩ : ∃ c, d.coefficient = 10 * c := ⟨d.coefficient / 10, by omega⟩
  obtain ⟨coefficient, exponent⟩ := d
  simp only at hcoefficient hc hz ⊢
  subst hcoefficient
  have hpos : 0 < c := by omega
  rw [Nat.mul_div_cancel_left c (by decide)]
  refine toFloat_congr (by simp only; omega) hc ?_ ?_
  · simp only [place, digitCount_mul_ten hpos]
    omega
  · cases exponent with
    | ofNat k =>
      have he : Int.ofNat k + 1 = Int.ofNat (k + 1) := rfl
      simp only [ratio, he]
      rw [Nat.pow_succ, Nat.mul_one, Nat.mul_one, Nat.mul_assoc, Nat.mul_comm 10, Nat.mul_assoc,
        Nat.mul_comm (10 ^ k)]
    | negSucc k =>
      cases k with
      | zero =>
        show c * 10 ^ 0 * 10 ^ (0 + 1) = 10 * c * 1
        omega
      | succ k =>
        have he : Int.negSucc (k + 1) + 1 = Int.negSucc k := by omega
        simp only [ratio, he]
        rw [Nat.pow_succ 10 (k + 1), Nat.mul_comm 10, Nat.mul_assoc, Nat.mul_comm 10]

theorem toFloat_dropZeros (count : Nat) (d : Decimal) :
    (dropZeros count d).toFloat false = d.toFloat false := by
  induction count generalizing d with
  | zero => rfl
  | succ count ih =>
    rw [dropZeros]
    split
    · next h => rw [ih, toFloat_dropZero h.1 h.2]
    · rfl

theorem toFloat_normal (d : Decimal) : d.normal.toFloat false = d.toFloat false :=
  toFloat_dropZeros _ d

/-! ## the exact decimal -/

theorem digitCount_le {n k : Nat} (hk : 0 < k) (h : n < 10 ^ k) : digitCount n ≤ k :=
  (Nat.length_toDigits_le_iff (by decide) hk).mpr h

theorem lt_digitCount {n k : Nat} (h : 10 ^ k ≤ n) : k < digitCount n := by
  rcases Nat.eq_zero_or_pos k with rfl | hk
  · exact Nat.length_toDigits_pos
  · refine Nat.lt_of_not_le fun hle => ?_
    have := (Nat.length_toDigits_le_iff (by decide) hk).mp hle
    omega

/-- Thirteen bits have at most four digits. -/
theorem two_pow_le {k n : Nat} (h : k ≤ 13 * n) : 2 ^ k ≤ 10 ^ (4 * n) :=
  calc 2 ^ k ≤ 2 ^ (13 * n) := Nat.pow_le_pow_right (by decide) h
    _ = (2 ^ 13) ^ n := Nat.pow_mul ..
    _ ≤ (10 ^ 4) ^ n := Nat.pow_le_pow_left (by decide) n
    _ = 10 ^ (4 * n) := (Nat.pow_mul ..).symm

theorem ten_pow (k : Nat) : 10 ^ k = 5 ^ k * 2 ^ k := (Nat.mul_pow 5 2 k)

theorem place_exact {m : Nat} {e : Int} (hm : 0 < m) (hlt : m < 2 ^ 53) (hl : -1074 ≤ e)
    (hh : e ≤ 971) : -400 ≤ (exact m e).place ∧ (exact m e).place ≤ 400 := by
  obtain ⟨n, hn⟩ : ∃ n, n = 83 := ⟨83, rfl⟩
  cases e with
  | ofNat k =>
    have hk : k ≤ 971 := by simp only [Int.ofNat_eq_natCast] at hh; omega
    have hbound : m * 2 ^ k < 10 ^ (4 * n) :=
      calc m * 2 ^ k < 2 ^ 53 * 2 ^ k := Nat.mul_lt_mul_of_pos_right hlt (Nat.two_pow_pos k)
        _ = 2 ^ (53 + k) := (Nat.pow_add ..).symm
        _ ≤ 10 ^ (4 * n) := two_pow_le (by omega)
    have := digitCount_le (by omega) hbound
    simp only [place, exact]
    omega
  | negSucc k =>
    have hk : k + 1 ≤ 1074 := by omega
    have hupper : m * 5 ^ (k + 1) < 10 ^ (16 + (k + 1)) :=
      calc m * 5 ^ (k + 1) ≤ 10 ^ 16 * 5 ^ (k + 1) := Nat.mul_le_mul_right _ (by omega)
        _ < 10 ^ 16 * 10 ^ (k + 1) :=
          Nat.mul_lt_mul_of_pos_left (Nat.pow_lt_pow_left (by decide) (by omega)) (by decide)
        _ = 10 ^ (16 + (k + 1)) := (Nat.pow_add ..).symm
    have hlower : k + 1 - 4 * n ≤ digitCount (m * 5 ^ (k + 1)) := by
      refine Nat.le_of_lt (lt_digitCount ?_)
      refine Nat.le_of_mul_le_mul_right ?_ (Nat.two_pow_pos (k + 1))
      rcases Nat.lt_or_ge (k + 1) (4 * n) with h | h
      · rw [Nat.sub_eq_zero_of_le (by omega), Nat.pow_zero, Nat.one_mul, Nat.mul_assoc, ← ten_pow]
        exact Nat.le_trans (Nat.pow_le_pow_left (by decide) _) (Nat.le_mul_of_pos_left _ hm)
      · calc 10 ^ (k + 1 - 4 * n) * 2 ^ (k + 1)
            ≤ 10 ^ (k + 1 - 4 * n) * 10 ^ (4 * n) := Nat.mul_le_mul_left _ (two_pow_le (by omega))
          _ = 10 ^ (k + 1) := by rw [← Nat.pow_add, Nat.sub_add_cancel h]
          _ ≤ m * 10 ^ (k + 1) := Nat.le_mul_of_pos_left _ hm
          _ = m * 5 ^ (k + 1) * 2 ^ (k + 1) := by rw [ten_pow, Nat.mul_assoc]
    have := digitCount_le (by omega) hupper
    simp only [place, exact]
    omega

theorem exact_ratio (m : Nat) (e : Int) :
    (exact m e).ratio.1 * (scaled m e).2 = (exact m e).ratio.2 * (scaled m e).1 := by
  cases e with
  | ofNat k => rw [exact, scaled]; simp [ratio]
  | negSucc k =>
    show m * 5 ^ (k + 1) * 2 ^ (k + 1) = 10 ^ (k + 1) * m
    rw [Nat.mul_assoc, ← ten_pow, Nat.mul_comm]

/-- The exact decimal of a magnitude reads back as it. -/
theorem toFloat_exact {bits m : Nat} {e : Int} (hb : bits < infinityBits) (hm : 0 < m)
    (hx : decode (withSign false bits) = .finite false m e) :
    (exact m e).toFloat false = withSign false bits := by
  have hc : (exact m e).coefficient ≠ 0 := by
    cases e with
    | ofNat k => exact Nat.pos_iff_ne_zero.mp (Nat.mul_pos hm (Nat.two_pow_pos k))
    | negSucc k => exact Nat.pos_iff_ne_zero.mp (Nat.mul_pos hm (Nat.pow_pos (by decide)))
  obtain ⟨hlt, hl, hh⟩ := decode_bounds hb hx
  obtain ⟨hplace, hplace'⟩ := place_exact hm hlt hl hh
  rw [toFloat_of_place hc hplace hplace']
  exact ofRatio_of_scaled hb hx (ratio_snd_pos _) (exact_ratio m e)

/-! ## the shortest decimal -/

theorem toFloat_withDigits? {tie : Tie} {m count : Nat} {e : Int} {d : Decimal}
    (h : withDigits? tie m e count = some d) :
    d.toFloat false = (exact m e).toFloat false := by
  simp only [withDigits?] at h
  split at h
  · next hb ha =>
    rw [Option.some.injEq] at h
    rw [← h]
    refine iteInduction (motive := fun d => toFloat false d = _) (fun _ => ?_) (fun _ => ?_)
    · exact eq_of_toBits_eq (eq_of_beq ha)
    · exact eq_of_toBits_eq (eq_of_beq hb)
  · next hb ha =>
    rw [Option.some.injEq] at h
    rw [← h]
    exact eq_of_toBits_eq (eq_of_beq hb)
  · next hb ha =>
    rw [Option.some.injEq] at h
    rw [← h]
    exact eq_of_toBits_eq (eq_of_beq ha)
  · simp at h

theorem toFloat_shortest (tie : Tie) (m : Nat) (e : Int) :
    (shortest tie m e).toFloat false = (exact m e).toFloat false := by
  rw [shortest, toFloat_normal]
  cases h : (List.range' 1 17).findSome? (withDigits? tie m e) with
  | none => rfl
  | some d =>
    obtain ⟨count, _, hd⟩ := List.exists_of_findSome?_eq_some h
    exact toFloat_withDigits? hd

end TemplateExpr.Decimal
