import TemplateExpr.Proofs.Number.Rounding

/-!
# Large integers as binary64 numbers

An integer of 64 bits has a mantissa of 53 bits and 11 bits below it.

* `Binary64.value?`             the rational number that a finite number is;
* `Binary64.IsNearest`          no finite number is nearer, and ties go to even;
* `Binary64.isNearest_ofNat`    an integer of 64 bits becomes the nearest number.
-/

namespace TemplateExpr

-- Powers are those of core, also where another power of naturals is in scope.
attribute [local instance (high)] instPowNat

namespace Binary64

def value? (x : Float) : Option ℚ :=
  match decode x with
  | .finite negative m e => some ((if negative then -1 else 1) * m * (2 : ℚ) ^ e)
  | _ => none

/-- The number is finite, and every other finite number is farther from `q`, or as far where the
last bit of the number is even. -/
def IsNearest (x : Float) (q : ℚ) : Prop :=
  ∃ r, value? x = some r ∧ ∀ y s, value? y = some s →
    s = r ∨ |r - q| < |s - q| ∨ |r - q| = |s - q| ∧ x.toBits.toNat % 2 = 0

theorem lt_of_decode {x : Float} {negative : Bool} {m : Nat} {e : Int}
    (h : decode x = .finite negative m e) : m < 2 ^ 53 := by
  have hlt : x.toBits.toNat % 2 ^ 52 < 2 ^ 52 := Nat.mod_lt _ (Nat.two_pow_pos 52)
  unfold decode at h
  dsimp only at h
  split at h
  · split at h <;> cases h
  · split at h
    · cases h
      omega
    · cases h
      omega

/-- A magnitude below infinity is finite. -/
theorem isFinite_withSign {bits : Nat} (h : bits < infinityBits) :
    (withSign false bits).isFinite = true := by
  show (withSign false bits).toModel.unpack.isFinite = true
  obtain hu | hu | ⟨m, e, hm, hu⟩ := unpack_withSign (Nat.le_of_lt h)
  · have hnan : (withSign false bits).toModel.unpack ≠ .notANumber := by
      rw [hu]
      simp
    have heq : withSign false bits = infinity false := eq_of_unpack_eq hnan (hu.trans rfl)
    exact absurd (withSign_injective (Nat.le_of_lt h) (Nat.le_refl _) heq) (Nat.ne_of_lt h)
  · rw [hu]
    rfl
  · rw [hu]
    rfl

/-! ## integers of 64 bits -/

section
variable {n : Nat} (low : 2 ^ 63 ≤ n) (high : n < 2 ^ 64)
include low high

theorem fittingExponent_of_wide : fittingExponent n 1 = 11 := by
  have hlog : n.log2 = 63 := (Nat.log2_eq_iff (by omega)).mpr ⟨low, high⟩
  have hone : (1 : Nat).log2 = 0 := by decide
  have hlow : max (-1074) (((63 : Nat) : Int) - ((0 : Nat) : Int) - 53) = Int.ofNat 10 := by decide
  unfold fittingExponent
  rw [hlog, hone, hlow]
  show (if 2 ^ 53 * (1 * 2 ^ 10) ≤ n * 1 then _ else _) = (11 : Int)
  rw [if_pos (by omega)]
  rfl

theorem nearestQuotient_of_wide :
    2 ^ 52 ≤ nearestQuotient n 2048 ∧ nearestQuotient n 2048 ≤ 2 ^ 53 := by
  unfold nearestQuotient
  dsimp only
  split
  · omega
  · split <;> omega

theorem magnitudeBits_of_wide :
    magnitudeBits n 1 = 1085 * 2 ^ 52 + nearestQuotient n 2048 ∧
      magnitudeBits n 1 < infinityBits := by
  obtain ⟨_, hle⟩ := nearestQuotient_of_wide low high
  have hbits : magnitudeBits n 1 =
      min (1085 * 2 ^ 52 + nearestQuotient n 2048) infinityBits := by
    unfold magnitudeBits
    rw [fittingExponent_of_wide low high]
    show min (1085 * 2 ^ 52 + nearestQuotient (n * 1) (1 * 2 ^ 11)) _ = _
    rw [Nat.mul_one]
  rw [hbits]
  simp only [infinityBits]
  omega

theorem ofNat_of_wide : ofNat n = withSign false (magnitudeBits n 1) := by
  rw [ofNat, ofRatio, if_neg (by omega)]

/-- The mantissa is rounded, and a carry into the exponent makes no difference. -/
theorem value?_ofNat_of_wide :
    value? (ofNat n) = some (((nearestQuotient n 2048 : Int) * 2048 : Int) : ℚ) := by
  obtain ⟨hbits, hlt⟩ := magnitudeBits_of_wide low high
  obtain ⟨hge, hle⟩ := nearestQuotient_of_wide low high
  rw [ofNat_of_wide low high, value?, decode_withSign hlt, hbits]
  generalize nearestQuotient n 2048 = q at hge hle ⊢
  rw [if_neg (by omega)]
  rcases Nat.lt_or_eq_of_le hle with hq | rfl
  · have hexponent : (1085 * 2 ^ 52 + q) / 2 ^ 52 = 1086 := by omega
    have hmantissa : 2 ^ 52 + (1085 * 2 ^ 52 + q) % 2 ^ 52 = q := by omega
    rw [hexponent, hmantissa]
    norm_num
  · norm_num

theorem toBits_ofNat_of_wide :
    (ofNat n).toBits.toNat % 2 = nearestQuotient n 2048 % 2 := by
  obtain ⟨hbits, hlt⟩ := magnitudeBits_of_wide low high
  rw [ofNat_of_wide low high, toNat_toBits_withSign (Nat.le_of_lt hlt), hbits]
  omega

end

/-! ## the nearest number -/

theorem nearestQuotient_lt (n : Nat) {k : Int} (hk : k ≠ nearestQuotient n 2048) :
    |(nearestQuotient n 2048 : Int) * 2048 - n| < |k * 2048 - n| ∨
      |(nearestQuotient n 2048 : Int) * 2048 - n| = |k * 2048 - n| ∧
        nearestQuotient n 2048 % 2 = 0 := by
  revert hk
  simp only [abs_eq_max_neg]
  unfold nearestQuotient
  dsimp only
  split
  · omega
  · split <;> omega

/-- A number from `2 ^ 63` on has no bits below the eleventh. -/
theorem multiple_of_wide {m : Nat} {e : Int} (hm : m < 2 ^ 53)
    (h : (2 : ℚ) ^ 63 ≤ m * (2 : ℚ) ^ e) :
    ∃ k : Int, (m * (2 : ℚ) ^ e) = ((k * 2048 : Int) : ℚ) := by
  have he : 11 ≤ e := by
    by_contra hlt
    have hpow : (2 : ℚ) ^ e ≤ (2 : ℚ) ^ (10 : Int) := zpow_le_zpow_right₀ (by norm_num) (by omega)
    have hm' : (m : ℚ) < 2 ^ 53 := by exact_mod_cast hm
    have hlt : m * (2 : ℚ) ^ e < 2 ^ 53 * (2 : ℚ) ^ (10 : Int) :=
      mul_lt_mul hm' hpow (zpow_pos (by norm_num) e) (by norm_num)
    norm_num at hlt h
    linarith
  obtain ⟨j, rfl⟩ := Int.le.dest he
  refine ⟨m * 2 ^ j, ?_⟩
  rw [zpow_add₀ (by norm_num), zpow_natCast]
  push_cast
  ring

theorem multiple_of_value? {y : Float} {s : ℚ} (hs : value? y = some s)
    (h : (2 : ℚ) ^ 63 ≤ s) : ∃ k : Int, s = ((k * 2048 : Int) : ℚ) := by
  unfold value? at hs
  split at hs
  · next negative m e hdecode =>
    rw [← Option.some.inj hs] at h ⊢
    cases negative with
    | false =>
      rw [if_neg (by simp), one_mul] at h ⊢
      exact multiple_of_wide (lt_of_decode hdecode) h
    | true =>
      have hneg : 0 ≤ (m : ℚ) * (2 : ℚ) ^ e :=
        mul_nonneg (Nat.cast_nonneg m) (zpow_nonneg (by norm_num) e)
      rw [if_pos rfl] at h
      norm_num at h
      linarith
  · cases hs

/-- **An integer of 64 bits becomes the nearest number.** -/
theorem isNearest_ofNat {n : Nat} (low : 2 ^ 63 ≤ n) (high : n < 2 ^ 64) :
    IsNearest (ofNat n) n := by
  refine ⟨_, value?_ofNat_of_wide low high, fun y s hs => ?_⟩
  rw [toBits_ofNat_of_wide low high]
  by_cases hwide : (2 : ℚ) ^ 63 ≤ s
  · obtain ⟨k, rfl⟩ := multiple_of_value? hs hwide
    by_cases hk : k = nearestQuotient n 2048
    · exact .inl (by rw [hk])
    · exact .inr (by exact_mod_cast nearestQuotient_lt n hk)
  · -- Below `2 ^ 63` all numbers are farther than `2 ^ 63` itself.
    have hlow : (2 : ℚ) ^ 63 ≤ n := by exact_mod_cast low
    have hend : |(((nearestQuotient n 2048 : Int) * 2048 : Int) : ℚ) - n| ≤ |(2 : ℚ) ^ 63 - n| := by
      by_cases hk : (2 ^ 52 : Int) = nearestQuotient n 2048
      · rw [← hk]
        norm_num
      · have hnear := nearestQuotient_lt n hk
        have hle : |(nearestQuotient n 2048 : Int) * 2048 - n| ≤ |(2 ^ 52 : Int) * 2048 - n| := by
          omega
        have hcast : ((|(nearestQuotient n 2048 : Int) * 2048 - n| : Int) : ℚ) ≤
            ((|(2 ^ 52 : Int) * 2048 - n| : Int) : ℚ) := by
          exact_mod_cast hle
        push_cast at hcast ⊢
        norm_num at hcast ⊢
        exact hcast
    refine .inr (.inl (hend.trans_lt ?_))
    rw [abs_of_nonpos (by linarith), abs_of_nonpos (by linarith)]
    linarith

/-- It is a finite number. -/
theorem isFinite_ofNat {n : Nat} (low : 2 ^ 63 ≤ n) (high : n < 2 ^ 64) :
    (ofNat n).isFinite = true := by
  rw [ofNat_of_wide low high]
  exact isFinite_withSign (magnitudeBits_of_wide low high).2

end Binary64

end TemplateExpr
