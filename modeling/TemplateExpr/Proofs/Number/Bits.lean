import Mathlib
import TemplateExpr.Number.Binary64

/-!
# Binary64 numbers and their bits

What the model of floats says about the bits of a number that is not a NaN.

* `toBits_ofBits`      a number keeps the bits it is made of;
* `beq_self`           it is equal to itself;
* `zero_le_withSign`   without a sign it is not below zero;
* `eq_or_zeros_of_beq` and else to the other zero at most;
* `decode_withSign`    the mantissa and the exponent that its bits spell.
-/

namespace TemplateExpr.Binary64

open Float.Model Float.Model.UnpackedFloat

-- Powers are those of core, also where another power of naturals is in scope.
attribute [local instance (high)] instPowNat

/-! ## packing -/

theorem toNat_unpackExponent (b : BitVec 64) :
    (@unpackExponent Format.binary64 b).toNat = b.toNat / 2 ^ 52 % 2 ^ 11 := by
  simp [unpackExponent, Nat.shiftRight_eq_div_pow]

theorem toNat_unpackMantissa (b : BitVec 64) :
    (@unpackMantissa Format.binary64 b).toNat = b.toNat % 2 ^ 52 := by
  simp [unpackMantissa]

theorem toNat_unpackSign (b : BitVec 64) :
    (@unpackSign Format.binary64 b).toNat = b.toNat / 2 ^ 63 % 2 := by
  simp [unpackSign, Nat.shiftRight_eq_div_pow]

theorem toNat_packComponents (sign : Sign) (e : BitVec 11) (m : BitVec 52) :
    (packComponents Format.binary64 sign e m).toNat =
      (sign.toBitVec.toNat * 2 ^ 11 + e.toNat) * 2 ^ 52 + m.toNat := by
  have := e.isLt
  have := m.isLt
  rw [packComponents, BitVec.toNat_append, BitVec.toNat_append]
  rw [← Nat.shiftLeft_add_eq_or_of_lt (by omega), ← Nat.shiftLeft_add_eq_or_of_lt (by omega)]
  simp [Nat.shiftLeft_eq]

theorem toNat_sign (b : BitVec 1) : (Sign.ofBitVec b).toBitVec = b := by
  revert b; decide

theorem packComponents_unpack (b : BitVec 64) :
    packComponents Format.binary64 (Sign.ofBitVec (@unpackSign Format.binary64 b))
      (@unpackExponent Format.binary64 b) (@unpackMantissa Format.binary64 b) = b := by
  apply BitVec.eq_of_toNat_eq
  rw [toNat_packComponents, toNat_sign, toNat_unpackSign, toNat_unpackExponent,
    toNat_unpackMantissa]
  have := b.isLt
  omega

/-- The bits of a not-a-number. -/
def IsNaN (bits : Nat) : Prop := bits / 2 ^ 52 % 2 ^ 11 = 2047 ∧ bits % 2 ^ 52 ≠ 0

theorem exponent_eq_ones_iff (b : BitVec 64) :
    @unpackExponent Format.binary64 b = -1#11 ↔ b.toNat / 2 ^ 52 % 2 ^ 11 = 2047 := by
  rw [← BitVec.toNat_inj, toNat_unpackExponent]
  rfl

theorem mantissa_eq_zero_iff (b : BitVec 64) :
    @unpackMantissa Format.binary64 b = 0#52 ↔ b.toNat % 2 ^ 52 = 0 := by
  rw [← BitVec.toNat_inj, toNat_unpackMantissa]
  rfl

theorem pack_unpack {b : BitVec 64} (h : ¬ IsNaN b.toNat) :
    UnpackedFloat.pack Format.binary64 (UnpackedFloat.unpack Format.binary64 b) = b := by
  have hm := (@unpackMantissa Format.binary64 b).isLt
  have he := (@unpackExponent Format.binary64 b).isLt
  have whole := packComponents_unpack b
  unfold UnpackedFloat.unpack
  dsimp only
  split
  · next hones =>
    have hzero : @unpackMantissa Format.binary64 b = 0#52 := by
      rw [mantissa_eq_zero_iff]
      rw [exponent_eq_ones_iff] at hones
      exact Decidable.byContradiction fun hne => h ⟨hones, hne⟩
    rw [if_pos hzero]
    rw [hones, hzero] at whole
    exact whole
  · next hones =>
    split
    · next hexp =>
      split
      · next hzero =>
        rw [hexp, hzero] at whole
        exact whole
      · next hzero =>
        rw [hexp] at whole
        simp only [UnpackedFloat.pack, Format.exponentBias, Format.mantissaBits, hexp]
        rw [if_neg (by simp), if_neg]
        · rw [BitVec.ofNat_toNat, BitVec.setWidth_eq]
          exact whole
        · have hpos : (@unpackMantissa Format.binary64 b).toNat ≠ 0 := by
            rw [toNat_unpackMantissa]
            exact fun e => hzero ((mantissa_eq_zero_iff b).mpr e)
          have := (Nat.log2_lt hpos).mpr hm
          simp only at this ⊢
          omega
    · next hexp =>
      have hexp' : (@unpackExponent Format.binary64 b).toNat ≠ 2047 := by
        rw [toNat_unpackExponent]
        exact fun e => hones ((exponent_eq_ones_iff b).mpr e)
      have hnormal : (1#1 ++ @unpackMantissa Format.binary64 b).toNat =
          2 ^ 52 + (@unpackMantissa Format.binary64 b).toNat := by
        rw [BitVec.toNat_append, ← Nat.shiftLeft_add_eq_or_of_lt hm]
        simp [Nat.shiftLeft_eq]
      have hlog : (1#1 ++ @unpackMantissa Format.binary64 b).toNat.log2 = 52 := by
        rw [hnormal]
        refine (Nat.log2_eq_iff (by omega)).mpr ?_
        simp only at hm
        omega
      have hbiased : ((@unpackExponent Format.binary64 b).toNat -
          (((2 ^ (11 - 1) - 1 : Nat) : Int) + ((52 : Nat) : Int)) +
            ((2 ^ (11 - 1) - 1 : Nat) : Int) + ((52 : Nat) : Int)).toNat =
          (@unpackExponent Format.binary64 b).toNat := by omega
      have hmantissa : BitVec.ofNat 52 (1#1 ++ @unpackMantissa Format.binary64 b).toNat =
          @unpackMantissa Format.binary64 b := by
        apply BitVec.eq_of_toNat_eq
        rw [hnormal, BitVec.toNat_ofNat]
        simp only at hm
        omega
      simp only [UnpackedFloat.pack, Format.exponentBias, Format.mantissaBits, hlog]
      rw [hbiased, hmantissa, if_neg, if_pos (by simp), BitVec.ofNat_toNat, BitVec.setWidth_eq]
      · exact whole
      · simp only at he
        omega

/-! ## floats -/

theorem eq_of_toBits_eq {x y : Float} (h : x.toBits = y.toBits) : x = y := by
  obtain ⟨⟨a, ha⟩⟩ := x
  obtain ⟨⟨b, hb⟩⟩ := y
  simp only [Float.toBits] at h
  subst h
  rfl

theorem toBits_ofBits {a : UInt64} (h : ¬ IsNaN a.toNat) : (Float.ofBits a).toBits = a := by
  show UInt64.ofBitVec (UnpackedFloat.pack Format.binary64
    (UnpackedFloat.unpack Format.binary64 a.toBitVec)) = a
  rw [pack_unpack (by exact h)]

theorem compare_self {u : UnpackedFloat} (h : u ≠ .notANumber) : u.compare u = some .eq := by
  cases u with
  | infinity s => cases s <;> rfl
  | notANumber => exact absurd rfl h
  | zero s => rfl
  | finite s m e hm =>
    have heq : (compare e e).then (compare m m) = .eq := by
      rw [show compare e e = .eq from Std.ReflCmp.compare_self,
        show compare m m = .eq from Std.ReflCmp.compare_self]
      rfl
    cases s
    · simp only [UnpackedFloat.compare, heq]; rfl
    · simp only [UnpackedFloat.compare, heq]

theorem unpack_ne_nan {b : BitVec 64} (h : ¬ IsNaN b.toNat) :
    UnpackedFloat.unpack Format.binary64 b ≠ .notANumber := by
  unfold UnpackedFloat.unpack
  dsimp only
  split
  · next hones =>
    rw [if_pos]
    · simp
    · rw [exponent_eq_ones_iff] at hones
      rw [mantissa_eq_zero_iff]
      exact Decidable.byContradiction fun hne => h ⟨hones, hne⟩
  · split
    · split <;> simp
    · simp

/-- A number is equal to itself. -/
theorem beq_self {x : Float} (h : ¬ IsNaN x.toBits.toNat) : (x == x) = true := by
  show (UnpackedFloat.compare x.toModel.unpack x.toModel.unpack == some .eq) = true
  have hn : x.toModel.unpack ≠ .notANumber := unpack_ne_nan h
  rw [compare_self hn]
  rfl

theorem not_isNaN_of_le {bits : Nat} (h : bits ≤ infinityBits) : ¬ IsNaN bits := by
  rintro ⟨he, hm⟩
  simp only [infinityBits] at h
  omega

theorem toNat_toBits_withSign {bits : Nat} (h : bits ≤ infinityBits) :
    (withSign false bits).toBits.toNat = bits := by
  have hlt : bits < 2 ^ 64 := by simp only [infinityBits] at h; omega
  have hn : (UInt64.ofNat bits).toNat = bits := by
    rw [UInt64.toNat_ofNat']; exact Nat.mod_eq_of_lt hlt
  rw [withSign, if_neg (by simp), toBits_ofBits, hn]
  rw [hn]
  exact not_isNaN_of_le h

theorem beq_withSign_self {bits : Nat} (h : bits ≤ infinityBits) :
    (withSign false bits == withSign false bits) = true := by
  apply beq_self
  rw [toNat_toBits_withSign h]
  exact not_isNaN_of_le h

/-- What the bits of a magnitude spell has no sign. -/
theorem unpack_withSign {bits : Nat} (h : bits ≤ infinityBits) :
    (withSign false bits).toModel.unpack = .infinity .positive ∨
      (withSign false bits).toModel.unpack = .zero .positive ∨
      ∃ m e hm, (withSign false bits).toModel.unpack = .finite .positive m e hm := by
  have hbits := toNat_toBits_withSign h
  have hsign : Sign.ofBitVec (@unpackSign Format.binary64
      (withSign false bits).toModel.toBits.toBitVec) = .positive := by
    have hzero : @unpackSign Format.binary64
        (withSign false bits).toModel.toBits.toBitVec = 0#1 := by
      apply BitVec.eq_of_toNat_eq
      rw [toNat_unpackSign]
      show (withSign false bits).toBits.toNat / 2 ^ 63 % 2 = 0
      rw [hbits]
      simp only [infinityBits] at h
      omega
    rw [hzero]
    rfl
  have hnan : (withSign false bits).toModel.unpack ≠ .notANumber := by
    apply unpack_ne_nan
    show ¬ IsNaN (withSign false bits).toBits.toNat
    rw [hbits]
    exact not_isNaN_of_le h
  unfold Float.Model.unpack UnpackedFloat.unpack at hnan ⊢
  dsimp only at hnan ⊢
  rw [hsign] at hnan ⊢
  split
  · next hones =>
    rw [if_pos hones] at hnan
    split
    · exact .inl rfl
    · next hm => exact absurd (if_neg hm) hnan
  · split
    · split
      · exact .inr (.inl rfl)
      · generalize_proofs hm
        exact .inr (.inr ⟨_, _, hm, rfl⟩)
    · generalize_proofs hm
      exact .inr (.inr ⟨_, _, hm, rfl⟩)

theorem isNaN_withSign {bits : Nat} (h : bits ≤ infinityBits) :
    (withSign false bits).isNaN = false := by
  show (withSign false bits).toModel.unpack.isNaN = false
  obtain hu | hu | ⟨m, e, hm, hu⟩ := unpack_withSign h
  all_goals
    rw [hu]
    rfl

theorem zero_le_withSign {bits : Nat} (h : bits ≤ infinityBits) : 0 ≤ withSign false bits := by
  show decide ((UnpackedFloat.zero .positive).le (withSign false bits).toModel.unpack = true) = true
  obtain hu | hu | ⟨m, e, hm, hu⟩ := unpack_withSign h
  all_goals
    rw [hu]
    rfl

theorem unpack_infinity : (infinity false).toModel.unpack = .infinity .positive := by
  rfl

/-- A finite magnitude is not infinity. -/
theorem beq_infinity_eq_false {bits : Nat} (h : bits < infinityBits) :
    (withSign false bits == infinity false) = false := by
  show (UnpackedFloat.compare (withSign false bits).toModel.unpack
    (infinity false).toModel.unpack == some .eq) = false
  have hbits := toNat_toBits_withSign (Nat.le_of_lt h)
  have hne : ¬ (@unpackExponent Format.binary64
      (withSign false bits).toModel.toBits.toBitVec = -1#11) := by
    rw [exponent_eq_ones_iff]
    show ¬ ((withSign false bits).toBits.toNat / 2 ^ 52 % 2 ^ 11 = 2047)
    rw [hbits]
    simp only [infinityBits] at h
    omega
  have hu : ∀ s, (withSign false bits).toModel.unpack ≠ .infinity s ∧
      (withSign false bits).toModel.unpack ≠ .notANumber := by
    intro s
    unfold Float.Model.unpack UnpackedFloat.unpack
    dsimp only
    rw [if_neg hne]
    split
    · split <;> simp
    · simp
  rw [unpack_infinity]
  cases hc : (withSign false bits).toModel.unpack with
  | infinity s => exact absurd hc (hu s).1
  | notANumber => rfl
  | zero s => rfl
  | finite s m e hm => cases s <;> rfl

theorem decode_withSign {bits : Nat} (h : bits < infinityBits) :
    decode (withSign false bits) = if bits / 2 ^ 52 = 0 then .finite false (bits % 2 ^ 52) (-1074)
      else .finite false (2 ^ 52 + bits % 2 ^ 52) ((bits / 2 ^ 52 : Nat) - 1075) := by
  have hlt : bits < 2 ^ 63 := by simp only [infinityBits] at h; omega
  have hm : bits / 2 ^ 52 % 2 ^ 11 = bits / 2 ^ 52 := by simp only [infinityBits] at h; omega
  have hd : bits / 2 ^ 52 ≠ 2047 := by simp only [infinityBits] at h; omega
  simp only [decode, toNat_toBits_withSign (Nat.le_of_lt h), hm, if_neg hd]
  rw [decide_eq_false (by omega)]

theorem decode_infinity : decode (infinity false) = .infinite false := by
  decide +kernel

/-! ## equal numbers -/

/-- Numbers that compare equal are one, or both are zeros. -/
theorem eq_or_zeros_of_compare {u v : UnpackedFloat} (h : u.compare v = some .eq) :
    u = v ∨ ∃ s t, u = .zero s ∧ v = .zero t := by
  have hparts : ∀ {e₁ e₂ : Int} {m₁ m₂ : Nat}, (compare e₁ e₂).then (compare m₁ m₂) = .eq →
      e₁ = e₂ ∧ m₁ = m₂ := by
    intro e₁ e₂ m₁ m₂ heq
    rw [Ordering.then_eq_eq] at heq
    exact ⟨Std.LawfulEqCmp.eq_of_compare heq.1, Std.LawfulEqCmp.eq_of_compare heq.2⟩
  cases u with
  | notANumber => simp [UnpackedFloat.compare] at h
  | infinity s =>
    cases v with
    | infinity t =>
      obtain rfl : s = t := by
        cases s <;> cases t <;> simp [UnpackedFloat.compare, compare] at h ⊢
      exact .inl rfl
    | _ => cases s <;> simp [UnpackedFloat.compare] at h
  | zero s =>
    cases v with
    | zero t => exact .inr ⟨s, t, rfl, rfl⟩
    | notANumber => simp [UnpackedFloat.compare] at h
    | infinity t | finite t => cases t <;> simp [UnpackedFloat.compare] at h
  | finite s m e hm =>
    cases v with
    | notANumber => simp [UnpackedFloat.compare] at h
    | infinity t | zero t => cases s <;> cases t <;> simp [UnpackedFloat.compare] at h
    | finite t n d hn =>
      cases s <;> cases t <;>
        simp only [UnpackedFloat.compare, Option.some.injEq, reduceCtorEq] at h
      · obtain ⟨rfl, rfl⟩ := hparts (Ordering.swap_eq_eq.mp h)
        exact .inl rfl
      · obtain ⟨rfl, rfl⟩ := hparts h
        exact .inl rfl

theorem not_isNaN_of_unpack {x : Float} (h : x.toModel.unpack ≠ .notANumber) :
    ¬ IsNaN x.toBits.toNat := by
  rintro ⟨he, hm⟩
  apply h
  show UnpackedFloat.unpack Format.binary64 x.toBits.toBitVec = _
  unfold UnpackedFloat.unpack
  dsimp only
  rw [if_pos ((exponent_eq_ones_iff _).mpr he),
    if_neg fun hzero => hm ((mantissa_eq_zero_iff _).mp hzero)]

theorem eq_of_unpack_eq {x y : Float} (hx : x.toModel.unpack ≠ .notANumber)
    (h : x.toModel.unpack = y.toModel.unpack) : x = y := by
  have hy : y.toModel.unpack ≠ .notANumber := h ▸ hx
  have hbits : x.toBits.toBitVec = y.toBits.toBitVec := by
    rw [← pack_unpack (not_isNaN_of_unpack hx), ← pack_unpack (not_isNaN_of_unpack hy)]
    exact congrArg _ h
  exact eq_of_toBits_eq (UInt64.toBitVec_inj.mp hbits)

theorem eq_zero_of_unpack {x : Float} {s : Sign} (h : x.toModel.unpack = .zero s) :
    ∃ negative, x = zero negative := by
  have hx : x.toModel.unpack ≠ .notANumber := by
    rw [h]
    simp
  cases s with
  | negative => exact ⟨true, eq_of_unpack_eq hx (h.trans rfl)⟩
  | positive => exact ⟨false, eq_of_unpack_eq hx (h.trans rfl)⟩

/-- Floats are equal only if they have the same bits, or both are zeros. -/
theorem eq_or_zeros_of_beq {x y : Float} (h : (x == y) = true) :
    x = y ∨ ∃ a b, x = zero a ∧ y = zero b := by
  have hbeq : (x.toModel.unpack.compare y.toModel.unpack == some .eq) = true := h
  have hcompare : x.toModel.unpack.compare y.toModel.unpack = some .eq := eq_of_beq hbeq
  rcases eq_or_zeros_of_compare hcompare with heq | ⟨s, t, hx, hy⟩
  · have hx : x.toModel.unpack ≠ .notANumber := by
      intro hnan
      rw [hnan] at hcompare
      simp [UnpackedFloat.compare] at hcompare
    exact .inl (eq_of_unpack_eq hx heq)
  · obtain ⟨a, rfl⟩ := eq_zero_of_unpack hx
    obtain ⟨b, rfl⟩ := eq_zero_of_unpack hy
    exact .inr ⟨a, b, rfl, rfl⟩

end TemplateExpr.Binary64
