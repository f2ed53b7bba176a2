import TemplateExpr.Operator.Apply
import TemplateExpr.Proofs.Number.Bits

/-!
# Arithmetic on integers

An operation on two integers is exact as long as its result has 64 bits, and goes to floats
otherwise.

* `ArithOp.Exact`        the mathematical result of an operation, where there is one;
* `ArithOp.inWords`      the operation on 64-bit words, which could wrap;
* `ArithOp.Overflows`    the one remainder that is not taken, as its quotient has more than 64 bits;
* `Number.integerResult?_eq_some_iff`    what is computed is the exact result;
* `Number.exists_float`                  what has none is a float, also in a floor division;
* `BinOp.apply_integers`                 operators on integers.
-/

namespace TemplateExpr

/-! ## exact results -/

namespace ArithOp

/-- The mathematical result of an operation on integers. A quotient has to be whole, and a remainder
is that of dividing toward zero, so that it has the sign of the dividend. -/
def Exact (op : ArithOp) (a b r : Int) : Prop :=
  match op with
  | .add => r = a + b
  | .subtract => r = a - b
  | .multiply => r = a * b
  | .divide => b ≠ 0 ∧ r * b = a
  | .floorDivide => b ≠ 0 ∧ r = ⌊(a : ℚ) / b⌋
  | .modulo => b ≠ 0 ∧ ∃ q, a = b * q + r ∧ r.natAbs < b.natAbs ∧ 0 ≤ a * r

/-- The operation on words of 64 bits, where `/` and `%` go toward zero and everything wraps. -/
def inWords (op : ArithOp) (a b : Int64) : Int64 :=
  match op with
  | .add => a + b
  | .subtract => a - b
  | .multiply => a * b
  | .divide => a / b
  | .floorDivide => if a % b ≠ 0 ∧ (a < 0) ≠ (b < 0) then a / b - 1 else a / b
  | .modulo => a % b

/-- The quotient behind this remainder is `2 ^ 63`. -/
def Overflows (op : ArithOp) (a b : Int64) : Prop :=
  op = .modulo ∧ a = Int64.minValue ∧ b = -1

theorem floor_div (a : Int) {b : Int} (hb : b ≠ 0) : ⌊(a : ℚ) / b⌋ = a.fdiv b := by
  have hpos : ∀ a b : Int, 0 < b → ⌊(a : ℚ) / b⌋ = a.fdiv b := by
    intro a b hb
    obtain ⟨d, rfl⟩ := Int.eq_ofNat_of_zero_le (Int.le_of_lt hb)
    rw [Int.cast_natCast, Rat.floor_intCast_div_natCast, Int.fdiv_eq_ediv_of_nonneg _ (by omega)]
  rcases Int.lt_or_gt_of_ne hb with hneg | hb
  · rw [← Int.neg_fdiv_neg, ← hpos (-a) (-b) (by omega), Int.cast_neg, Int.cast_neg, neg_div_neg_eq]
  · exact hpos a b hb

theorem exact_remainder_iff {a b r : Int} (hb : b ≠ 0) :
    (∃ q, a = b * q + r ∧ r.natAbs < b.natAbs ∧ 0 ≤ a * r) ↔ r = a.tmod b := by
  have hsplit := Int.mul_tdiv_add_tmod a b
  have hsmall : (a.tmod b).natAbs < b.natAbs := by
    rw [Int.natAbs_tmod]
    exact Nat.mod_lt _ (by omega)
  have hsign : 0 ≤ a * a.tmod b := by
    rcases Int.le_total 0 a with ha | ha
    · exact Int.mul_nonneg ha (Int.tmod_nonneg b ha)
    · have hneg := Int.tmod_nonneg b (Int.neg_nonneg_of_nonpos ha)
      rw [Int.neg_tmod] at hneg
      exact Int.mul_nonneg_of_nonpos_of_nonpos ha (by omega)
  constructor
  · rintro ⟨q, heq, hr, hra⟩
    -- two remainders of one sign are less than a divisor apart, and they differ by a multiple of it
    have hdvd : b ∣ r - a.tmod b := ⟨a.tdiv b - q, by rw [Int.mul_sub]; omega⟩
    have hclose : (r - a.tmod b).natAbs < b.natAbs := by
      rcases Int.lt_trichotomy a 0 with ha | rfl | ha
      · have := nonpos_of_mul_nonneg_right hra ha
        have := nonpos_of_mul_nonneg_right hsign ha
        omega
      · rw [Int.zero_tmod]
        omega
      · have := nonneg_of_mul_nonneg_right hra ha
        have := nonneg_of_mul_nonneg_right hsign ha
        omega
    have := Int.eq_zero_of_dvd_of_natAbs_lt_natAbs hdvd hclose
    omega
  · rintro rfl
    exact ⟨a.tdiv b, hsplit.symm, hsmall, hsign⟩

end ArithOp

/-! ## results of 64 bits -/

namespace Number

theorem narrow?_toInt (n : Int64) : narrow? n.toInt = some n := by
  rw [narrow?, if_pos, Int64.ofInt_toInt]
  exact ⟨Int64.minValue_le_toInt n, Int64.toInt_le n⟩

theorem toInt_of_narrow? {i : Int} {n : Int64} (h : narrow? i = some n) : n.toInt = i := by
  unfold narrow? at h
  split at h
  · next hr =>
    rw [Option.some.injEq] at h
    rw [← h]
    exact Int64.toInt_ofInt_of_le hr.1 (Int.lt_add_one_of_le hr.2)
  · simp at h

theorem isSome_narrow?_iff {i : Int} : (narrow? i).isSome ↔ -2 ^ 63 ≤ i ∧ i < 2 ^ 63 := by
  have hmin : Int64.minValue.toInt = -2 ^ 63 := by decide
  have hmax : Int64.maxValue.toInt = 2 ^ 63 - 1 := by decide
  rw [narrow?, hmin, hmax]
  split
  · simp only [Option.isSome_some, true_iff]
    omega
  · simp only [Option.isSome_none, Bool.false_eq_true, false_iff]
    omega

variable {a b : Int64}

theorem toInt_eq_minValue : a.toInt = -2 ^ 63 ↔ a = Int64.minValue := by
  rw [← Int64.toInt_inj]
  exact Iff.rfl

theorem toInt_eq_neg_one : b.toInt = -1 ↔ b = -1 := by
  rw [← Int64.toInt_inj]
  exact Iff.rfl

/-- By a divisor that is no unit, the magnitude is at least halved. -/
theorem two_mul_natAbs_tdiv {a b : Int} (hb : 2 ≤ b.natAbs) :
    2 * (a.tdiv b).natAbs ≤ a.natAbs := by
  rw [Int.natAbs_tdiv]
  calc 2 * (a.natAbs / b.natAbs) ≤ b.natAbs * (a.natAbs / b.natAbs) := Nat.mul_le_mul_right _ hb
    _ ≤ a.natAbs := Nat.mul_div_le _ _

/-- The floor of a quotient is the quotient toward zero, or one less if that has gone up. -/
theorem fdiv_eq_tdiv {a b : Int} (hb : b ≠ 0) :
    a.fdiv b = if a.tmod b ≠ 0 ∧ (a < 0) ≠ (b < 0) then a.tdiv b - 1 else a.tdiv b := by
  have hzero : b ∣ a ↔ a.tmod b = 0 := Int.dvd_iff_tmod_eq_zero
  rw [Int.fdiv_eq_tdiv]
  by_cases hdvd : b ∣ a
  · rw [if_pos hdvd, if_neg fun h => h.1 (hzero.mp hdvd), Int.sub_zero]
  · simp only [if_neg hdvd, ne_eq, mt hzero.mpr hdvd, not_false_eq_true, true_and]
    rcases Int.lt_or_gt_of_ne hb with hneg | hpos
    · rw [Int.sign_eq_neg_one_iff_neg.mpr hneg]
      by_cases ha : a < 0
      · simp [ha, hneg, Int.not_le.mpr ha, Int.not_le.mpr hneg]
      · simp [ha, hneg, Int.not_lt.mp ha, Int.not_le.mpr hneg]
    · rw [Int.sign_eq_one_iff_pos.mpr hpos]
      by_cases ha : a < 0
      · simp [ha, Int.not_lt.mpr (Int.le_of_lt hpos), Int.not_le.mpr ha, Int.le_of_lt hpos]
      · simp [ha, Int.not_lt.mpr (Int.le_of_lt hpos), Int.not_lt.mp ha, Int.le_of_lt hpos]

/-- Every quotient toward zero has 64 bits but one. -/
theorem isSome_narrow?_tdiv (hb : b.toInt ≠ 0) :
    (narrow? (a.toInt.tdiv b.toInt)).isSome ↔ ¬ (a = Int64.minValue ∧ b = -1) := by
  have hle := Int64.le_toInt a
  have hlt := Int64.toInt_lt a
  rw [isSome_narrow?_iff, ← toInt_eq_minValue, ← toInt_eq_neg_one]
  by_cases hunit : 2 ≤ b.toInt.natAbs
  · have := two_mul_natAbs_tdiv (a := a.toInt) hunit
    omega
  · obtain hone | hone : b.toInt = 1 ∨ b.toInt = -1 := by omega
    · rw [hone, Int.tdiv_one]
      omega
    · rw [hone, Int.tdiv_neg, Int.tdiv_one]
      omega

/-- And so does every floor of a quotient. -/
theorem isSome_narrow?_fdiv (hb : b.toInt ≠ 0) :
    (narrow? (a.toInt.fdiv b.toInt)).isSome ↔ ¬ (a = Int64.minValue ∧ b = -1) := by
  have hle := Int64.le_toInt a
  have hlt := Int64.toInt_lt a
  rw [← isSome_narrow?_tdiv hb, isSome_narrow?_iff, isSome_narrow?_iff, fdiv_eq_tdiv hb]
  split
  · next hdown =>
    by_cases hunit : 2 ≤ b.toInt.natAbs
    · have := two_mul_natAbs_tdiv (a := a.toInt) hunit
      omega
    · have hdvd : b.toInt ∣ a.toInt := by
        apply Int.natAbs_dvd.mp
        rw [show b.toInt.natAbs = 1 by omega]
        exact Int.one_dvd _
      exact absurd (Int.dvd_iff_tmod_eq_zero.mp hdvd) hdown.1
  · exact Iff.rfl

/-- What is computed is the exact result, except for one remainder. -/
theorem integerResult?_eq_some_iff {op : ArithOp} {r : Int} :
    integerResult? op a.toInt b.toInt = some r ↔
      op.Exact a.toInt b.toInt r ∧ ¬ op.Overflows a b := by
  cases op with
  | add | subtract | multiply =>
    simp only [integerResult?, ArithOp.Exact, ArithOp.Overflows, Option.some.injEq, reduceCtorEq,
      false_and, not_false_eq_true, and_true]
    exact eq_comm
  | divide =>
    simp only [integerResult?, ArithOp.Exact, ArithOp.Overflows, reduceCtorEq, false_and,
      not_false_eq_true, and_true, Option.ite_none_right_eq_some, Option.some.injEq, and_assoc]
    refine and_congr_right fun hb => ⟨?_, ?_⟩
    · rintro ⟨hmod, rfl⟩
      exact Int.ediv_mul_cancel (Int.dvd_of_emod_eq_zero hmod)
    · intro hr
      rw [← hr, Int.mul_emod_left, Int.mul_ediv_cancel _ hb]
      exact ⟨rfl, rfl⟩
  | floorDivide =>
    simp only [integerResult?, ArithOp.Exact, ArithOp.Overflows, reduceCtorEq, false_and,
      not_false_eq_true, and_true, Option.ite_none_right_eq_some, Option.some.injEq]
    refine and_congr_right fun hb => ?_
    rw [ArithOp.floor_div _ hb]
    exact eq_comm
  | modulo =>
    simp only [integerResult?, ArithOp.Exact, ArithOp.Overflows, true_and,
      Option.ite_none_right_eq_some, Option.some.injEq, and_assoc]
    refine and_congr_right fun hb => ?_
    rw [ArithOp.exact_remainder_iff hb, isSome_narrow?_tdiv hb, and_comm, eq_comm]

/-! ## floats where there is no exact result -/

open Float.Model Float.Model.UnpackedFloat in
/-- What is divided by zero is infinite or a NaN. -/
theorem floor?_div_zero (x : Float) : Binary64.floor? (x / Binary64.ofInt64 0) = none := by
  have hzero : (Binary64.ofInt64 0).toModel.unpack = .zero .positive := rfl
  have hdiv : x / Binary64.ofInt64 0 =
      ⟨Float.Model.pack (UnpackedFloat.div Format.binary64 x.toModel.unpack (.zero .positive))⟩ := by
    rw [← hzero]
    rfl
  have hquotient : UnpackedFloat.div Format.binary64 x.toModel.unpack (.zero .positive) =
      .notANumber ∨ ∃ s, UnpackedFloat.div Format.binary64 x.toModel.unpack (.zero .positive) =
        .infinity s := by
    cases x.toModel.unpack with
    | notANumber | zero => exact .inl rfl
    | infinity | finite => exact .inr ⟨_, rfl⟩
  rw [hdiv]
  obtain hnan | ⟨s, hinf⟩ := hquotient
  · rw [hnan]
    rfl
  · rw [hinf]
    cases s <;> rfl

/-- A floor division of floats gives an integer in general, but not where that of the integers has
failed. -/
theorem exists_float {op : ArithOp}
    (hnone : (integerResult? op a.toInt b.toInt).bind narrow? = none) :
    ∃ x, applyFloats op (Binary64.ofInt64 a) (Binary64.ofInt64 b) = .float x := by
  cases op with
  | floorDivide =>
    by_cases hb : b.toInt = 0
    · obtain rfl : b = 0 := Int64.toInt_inj.mp hb
      refine ⟨Binary64.ofInt64 a / Binary64.ofInt64 0, ?_⟩
      rw [applyFloats, floor, floor?_div_zero]
    · have hnarrow : ¬ (narrow? (a.toInt.fdiv b.toInt)).isSome := by
        rw [integerResult?, if_pos hb] at hnone
        rw [show narrow? (a.toInt.fdiv b.toInt) = none from hnone]
        simp
      rw [isSome_narrow?_fdiv hb, not_not] at hnarrow
      obtain ⟨rfl, rfl⟩ := hnarrow
      exact ⟨_, rfl⟩
  | _ => exact ⟨_, rfl⟩

/-- An operation on integers gives the exact result if it has 64 bits. -/
theorem applyInts_eq_int_iff {op : ArithOp} {r : Int64} :
    applyInts op a b = .int r ↔ op.Exact a.toInt b.toInt r.toInt ∧ ¬ op.Overflows a b := by
  rw [← integerResult?_eq_some_iff, applyInts]
  cases hresult : (integerResult? op a.toInt b.toInt).bind narrow? with
  | none =>
    obtain ⟨x, hx⟩ := exists_float hresult
    simp only [hx, reduceCtorEq, false_iff]
    intro hsome
    rw [hsome, Option.bind_some, narrow?_toInt] at hresult
    cases hresult
  | some n =>
    obtain ⟨i, hi, hn⟩ := Option.bind_eq_some_iff.mp hresult
    simp only [hi, int.injEq, Option.some.injEq, ← toInt_of_narrow? hn, Int64.toInt_inj]

/-! ## words do not wrap -/

theorem toInt_of_bmod {i : Int} {r w : Int64} (hw : w.toInt = i.bmod (2 ^ 64)) (hr : r.toInt = i) :
    r = w := by
  apply Int64.toInt_inj.mp
  have := Int64.le_toInt r
  have := Int64.toInt_lt r
  rw [hw, ← hr, Int.bmod_eq_of_le (by norm_num; omega) (by norm_num; omega)]

/-- An exact result that has 64 bits is computed in words, without wrapping on the way. -/
theorem eq_inWords {op : ArithOp} {r : Int64} (hexact : op.Exact a.toInt b.toInt r.toInt) :
    r = op.inWords a b := by
  cases op with
  | add => exact toInt_of_bmod (Int64.toInt_add a b) hexact
  | subtract => exact toInt_of_bmod (Int64.toInt_sub a b) hexact
  | multiply => exact toInt_of_bmod (Int64.toInt_mul a b) hexact
  | divide =>
    obtain ⟨hb, hr⟩ := hexact
    refine toInt_of_bmod (Int64.toInt_div a b) ?_
    rw [← hr, Int.mul_tdiv_cancel _ hb]
  | floorDivide =>
    obtain ⟨hb, hr⟩ := hexact
    rw [ArithOp.floor_div _ hb, fdiv_eq_tdiv hb] at hr
    have hdown : (a % b ≠ 0 ∧ (a < 0) ≠ (b < 0)) ↔
        a.toInt.tmod b.toInt ≠ 0 ∧ (a.toInt < 0) ≠ (b.toInt < 0) := by
      rw [← Int64.toInt_mod, Int64.lt_iff_toInt_lt, Int64.lt_iff_toInt_lt, ne_eq,
        ← Int64.toInt_inj]
      exact Iff.rfl
    rw [ArithOp.inWords]
    split
    · next h =>
      rw [if_pos (hdown.mp h)] at hr
      refine toInt_of_bmod ?_ hr
      rw [Int64.toInt_sub, Int64.toInt_div, Int.bmod_sub_bmod]
      rfl
    · next h =>
      rw [if_neg (mt hdown.mpr h)] at hr
      exact toInt_of_bmod (Int64.toInt_div a b) hr
  | modulo =>
    obtain ⟨hb, hr⟩ := hexact
    apply Int64.toInt_inj.mp
    rw [(ArithOp.exact_remainder_iff hb).mp hr]
    exact (Int64.toInt_mod a b).symm

end Number

/-! ## operators -/

namespace BinOp

theorem apply_arith_ints (h : Heap) (op : ArithOp) (a b : Int64) :
    (arith op).apply h (.int a) (.int b) = .ok (.ofNumber (Number.applyInts op a b)) := by
  cases op <;> rfl

/-- An operator on two integers always answers. It answers with the exact result where there is one
of 64 bits, which 64-bit words compute without wrapping, and with a float otherwise; the remainder
of the least integer by `-1` is the one exact result that becomes a float. -/
theorem apply_integers (h : Heap) (op : ArithOp) (a b : Int64) :
    (∀ r : Int64, (arith op).apply h (.int a) (.int b) = .ok (.int r) ↔
      op.Exact a.toInt b.toInt r.toInt ∧ ¬ op.Overflows a b) ∧
    ((∃ x, (arith op).apply h (.int a) (.int b) = .ok (.float x)) ↔
      (∀ r : Int64, ¬ op.Exact a.toInt b.toInt r.toInt) ∨ op.Overflows a b) ∧
    ∀ r : Int64, (arith op).apply h (.int a) (.int b) = .ok (.int r) → r = op.inWords a b := by
  have hint : ∀ r : Int64, (arith op).apply h (.int a) (.int b) = .ok (.int r) ↔
      op.Exact a.toInt b.toInt r.toInt ∧ ¬ op.Overflows a b := by
    intro r
    rw [← Number.applyInts_eq_int_iff, apply_arith_ints]
    cases Number.applyInts op a b <;> simp [Value.ofNumber]
  refine ⟨hint, ⟨?_, ?_⟩, fun r hr => Number.eq_inWords ((hint r).mp hr).1⟩
  · rintro ⟨x, hx⟩
    by_cases hover : op.Overflows a b
    · exact .inr hover
    · refine .inl fun r hr => ?_
      have := (hint r).mpr ⟨hr, hover⟩
      rw [hx] at this
      cases this
  · intro hnone
    rw [apply_arith_ints]
    cases hresult : Number.applyInts op a b with
    | float x => exact ⟨x, rfl⟩
    | int r =>
      obtain ⟨hr, hover⟩ := Number.applyInts_eq_int_iff.mp hresult
      exact absurd hnone (not_or.mpr ⟨fun h => h r hr, hover⟩)

/-- The remainder of the least integer by `-1` is zero, and is answered by a float. -/
theorem apply_least_remainder :
    ArithOp.modulo.Exact Int64.minValue.toInt (-1) 0 ∧
    (arith .modulo).apply .empty (.int Int64.minValue) (.int (-1)) =
      .ok (.float (Binary64.zero true)) := by
  refine ⟨⟨by decide, -Int64.minValue.toInt, ?_⟩, rfl⟩
  decide

end BinOp

end TemplateExpr
