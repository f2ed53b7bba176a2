import TemplateExpr.Proofs.Number.Bits

/-!
# Rounding to binary64

A magnitude is a mantissa of at most 53 bits at a power of two, counted from the least one.

* `nearestQuotient_congr`, `magnitudeBits_congr`   rounding depends on the ratio only;
* `ofRatio_of_scaled`    a fraction that is a binary64 number is rounded to that number;
* `whole_of_ofRatio`     a whole number is rounded to a whole number or to infinity.
-/

namespace TemplateExpr

-- Powers are those of core, also where another power of naturals is in scope.
attribute [local instance (high)] instPowNat

theorem nearestQuotient_mul_left {k : Nat} (hk : 0 < k) (n d : Nat) :
    nearestQuotient (k * n) (k * d) = nearestQuotient n d := by
  have hlt : 2 * (k * (n % d)) < k * d ↔ 2 * (n % d) < d := by
    rw [Nat.mul_left_comm]; exact Nat.mul_lt_mul_left hk
  have hgt : k * d < 2 * (k * (n % d)) ↔ d < 2 * (n % d) := by
    rw [Nat.mul_left_comm]; exact Nat.mul_lt_mul_left hk
  simp only [nearestQuotient, Nat.mul_div_mul_left _ _ hk, Nat.mul_mod_mul_left, hlt, hgt]

/-- The nearest integer depends on the ratio only. -/
theorem nearestQuotient_congr {n d n' d' : Nat} (hd : 0 < d) (hd' : 0 < d')
    (h : n * d' = n' * d) : nearestQuotient n d = nearestQuotient n' d' := by
  rw [← nearestQuotient_mul_left hd' n d, ← nearestQuotient_mul_left hd n' d',
    Nat.mul_comm d' n, h, Nat.mul_comm n' d, Nat.mul_comm d' d]

theorem nearestQuotient_mul_self {d : Nat} (hd : 0 < d) (q : Nat) :
    nearestQuotient (q * d) d = q := by
  simp only [nearestQuotient, Nat.mul_mod_left, Nat.mul_div_cancel q hd, Nat.mul_zero, if_pos hd]

theorem le_nearestQuotient {n d k : Nat} (hd : 0 < d) (h : k * d ≤ n) :
    k ≤ nearestQuotient n d := by
  have hq : k ≤ n / d := (Nat.le_div_iff_mul_le hd).mpr h
  simp only [nearestQuotient]
  split
  · exact hq
  · split <;> omega

namespace Binary64

/-- The power of two that the least magnitude is one over. -/
@[irreducible] def depth : Nat := 1074

theorem depth_eq : depth = 1074 := by rw [depth]

/-- One, counted in least magnitudes. -/
def unit : Nat := 2 ^ depth

theorem unit_pos : 0 < unit := Nat.two_pow_pos depth

theorem scaled_pos {m : Nat} (hm : 0 < m) (e : Int) : 0 < (scaled m e).1 ∧ 0 < (scaled m e).2 := by
  cases e with
  | ofNat k => exact ⟨Nat.mul_pos hm (Nat.two_pow_pos k), Nat.one_pos⟩
  | negSucc k => exact ⟨hm, Nat.two_pow_pos (k + 1)⟩

theorem scaled_shift (m j : Nat) :
    (scaled m ((j : Int) - 1074)).1 * unit = (scaled m ((j : Int) - 1074)).2 * (m * 2 ^ j) := by
  cases he : (j : Int) - 1074 with
  | ofNat k =>
    obtain rfl : j = k + depth := by
      rw [depth_eq]
      simp only [Int.ofNat_eq_natCast] at he
      omega
    rw [unit, scaled, Nat.one_mul, Nat.pow_add, Nat.mul_assoc]
  | negSucc k =>
    have hu : unit = 2 ^ (k + 1) * 2 ^ j := by
      rw [unit, ← Nat.pow_add, depth_eq]
      congr 1
      omega
    rw [hu, scaled, Nat.mul_left_comm]

/-- The magnitude `a / d` over the least one has a mantissa of at most 53 bits at the power `j`, and
none of fewer bits would do, unless it is the least power. -/
def Fits (a d j : Nat) : Prop := a < 2 ^ 53 * (d * 2 ^ j) ∧ (j = 0 ∨ 2 ^ 52 * (d * 2 ^ j) ≤ a)

theorem Fits.unique {a d j j' : Nat} (h : Fits a d j) (h' : Fits a d j') : j = j' := by
  have step : ∀ {i k : Nat}, Fits a d i → Fits a d k → ¬ i < k := by
    intro i k hi hk hlt
    have hle := hk.2.resolve_left (by omega)
    have hpow : d * 2 ^ (i + 1) ≤ d * 2 ^ k :=
      Nat.mul_le_mul_left d (Nat.pow_le_pow_right (by decide) hlt)
    have := hi.1
    rw [Nat.pow_succ, ← Nat.mul_assoc] at hpow
    omega
  have := step h h'
  have := step h' h
  omega

theorem fits_mul {a d j k : Nat} (hk : 0 < k) : Fits (k * a) (k * d) j ↔ Fits a d j := by
  have e : ∀ x, x * (k * d * 2 ^ j) = k * (x * (d * 2 ^ j)) := by
    intro x
    rw [Nat.mul_assoc k d, Nat.mul_left_comm x k]
  rw [Fits, Fits, e, e, Nat.mul_lt_mul_left hk, Nat.mul_le_mul_left_iff hk]

theorem scaled_le_iff {d : Nat} (hd : 0 < d) (n x j : Nat) :
    x * (scaled d ((j : Int) - 1074)).1 ≤ n * (scaled d ((j : Int) - 1074)).2 ↔
      x * (d * 2 ^ j) ≤ n * unit := by
  have shift := scaled_shift d j
  obtain ⟨_, hb⟩ := scaled_pos hd ((j : Int) - 1074)
  generalize scaled d ((j : Int) - 1074) = ab at *
  have hl : unit * (x * ab.1) = ab.2 * (x * (d * 2 ^ j)) := by
    rw [Nat.mul_left_comm, Nat.mul_comm unit, shift, Nat.mul_left_comm]
  have hr : unit * (n * ab.2) = ab.2 * (n * unit) := by
    rw [Nat.mul_left_comm ab.2, Nat.mul_comm ab.2, Nat.mul_left_comm]
  rw [← Nat.mul_le_mul_left_iff unit_pos, hl, hr, Nat.mul_le_mul_left_iff hb]

/-- The powers of two around a fraction that the logarithms of its parts give. -/
theorem log2_bounds {n d : Nat} (hn : 0 < n) (hd : 0 < d) :
    let j := (n.log2 + 1074) - (d.log2 + 53)
    (j = 0 ∨ 2 ^ 52 * (d * 2 ^ j) ≤ n * unit) ∧ n * unit < 2 ^ 53 * (d * 2 ^ (j + 1)) := by
  intro j
  have hn₁ : 2 ^ n.log2 ≤ n := Nat.log2_self_le (by omega)
  have hn₂ : n < 2 ^ (n.log2 + 1) := Nat.lt_log2_self
  have hd₁ : 2 ^ d.log2 ≤ d := Nat.log2_self_le (by omega)
  have hd₂ : d < 2 ^ (d.log2 + 1) := Nat.lt_log2_self
  constructor
  · rcases Nat.eq_zero_or_pos j with h | h
    · exact .inl h
    · refine .inr ?_
      calc 2 ^ 52 * (d * 2 ^ j)
          ≤ 2 ^ 52 * (2 ^ (d.log2 + 1) * 2 ^ j) :=
            Nat.mul_le_mul_left _ (Nat.mul_le_mul_right _ (Nat.le_of_lt hd₂))
        _ = 2 ^ (52 + (d.log2 + 1 + j)) := by rw [← Nat.pow_add, ← Nat.pow_add]
        _ = 2 ^ (n.log2 + depth) := by rw [depth_eq]; congr 1; omega
        _ = 2 ^ n.log2 * unit := by rw [unit, Nat.pow_add]
        _ ≤ n * unit := Nat.mul_le_mul_right _ hn₁
  · calc n * unit
        < 2 ^ (n.log2 + 1) * unit := Nat.mul_lt_mul_of_pos_right hn₂ unit_pos
      _ = 2 ^ (n.log2 + 1 + depth) := by rw [unit, ← Nat.pow_add]
      _ ≤ 2 ^ (53 + (d.log2 + (j + 1))) :=
        Nat.pow_le_pow_right (by decide) (by rw [depth_eq]; omega)
      _ = 2 ^ 53 * (2 ^ d.log2 * 2 ^ (j + 1)) := by rw [← Nat.pow_add, ← Nat.pow_add]
      _ ≤ 2 ^ 53 * (d * 2 ^ (j + 1)) := Nat.mul_le_mul_left _ (Nat.mul_le_mul_right _ hd₁)

/-- The exponent of a fraction is the one at which its mantissa fits. -/
theorem exists_fits {n d : Nat} (hn : 0 < n) (hd : 0 < d) :
    ∃ j : Nat, fittingExponent n d = (j : Int) - 1074 ∧ Fits (n * unit) d j := by
  obtain ⟨hlow, hhigh⟩ := log2_bounds hn hd
  generalize hj : (n.log2 + 1074) - (d.log2 + 53) = j at hlow hhigh
  have hl : max (-1074) ((n.log2 : Int) - d.log2 - 53) = (j : Int) - 1074 := by omega
  have hfit : fittingExponent n d =
      if 2 ^ 53 * (d * 2 ^ j) ≤ n * unit then (j : Int) - 1074 + 1 else (j : Int) - 1074 := by
    simp only [fittingExponent, hl, scaled_le_iff hd]
  rw [hfit]
  split
  · next h =>
    refine ⟨j + 1, by omega, hhigh, .inr ?_⟩
    calc 2 ^ 52 * (d * 2 ^ (j + 1)) = 2 ^ 53 * (d * 2 ^ j) := by
          have : d * 2 ^ (j + 1) = d * 2 ^ j * 2 := by rw [Nat.pow_succ, Nat.mul_assoc]
          omega
      _ ≤ n * unit := h
  · next h => exact ⟨j, rfl, by omega, hlow⟩

theorem magnitudeBits_eq_of_fits {n d j : Nat} (hn : 0 < n) (hd : 0 < d)
    (h : Fits (n * unit) d j) :
    magnitudeBits n d =
      min (j * 2 ^ 52 + nearestQuotient (n * unit) (d * 2 ^ j)) infinityBits := by
  obtain ⟨i, he, hi⟩ := exists_fits hn hd
  obtain rfl : i = j := hi.unique h
  obtain ⟨ha, hb⟩ := scaled_pos hd ((i : Int) - 1074)
  have hq : nearestQuotient (n * (scaled d ((i : Int) - 1074)).2) (scaled d ((i : Int) - 1074)).1 =
      nearestQuotient (n * unit) (d * 2 ^ i) := by
    refine nearestQuotient_congr ha (Nat.mul_pos hd (Nat.two_pow_pos i)) ?_
    rw [Nat.mul_assoc, ← scaled_shift, Nat.mul_assoc, Nat.mul_comm unit]
  have hi : ((i : Int) - 1074 + 1074).toNat = i := by omega
  simp only [magnitudeBits, he, hi, hq]

/-- The bits of a magnitude depend on the ratio only. -/
theorem magnitudeBits_congr {n d n' d' : Nat} (hn : 0 < n) (hd : 0 < d) (hn' : 0 < n')
    (hd' : 0 < d') (h : n * d' = n' * d) : magnitudeBits n d = magnitudeBits n' d' := by
  obtain ⟨j, _, hj⟩ := exists_fits hn hd
  have hj' : Fits (n' * unit) d' j := by
    rw [← fits_mul hd]
    rw [← fits_mul hd', ← Nat.mul_assoc, Nat.mul_comm d' n, h, Nat.mul_comm n', Nat.mul_comm d',
      Nat.mul_assoc] at hj
    exact hj
  have hq : nearestQuotient (n * unit) (d * 2 ^ j) = nearestQuotient (n' * unit) (d' * 2 ^ j) := by
    refine nearestQuotient_congr (Nat.mul_pos hd (Nat.two_pow_pos j))
      (Nat.mul_pos hd' (Nat.two_pow_pos j)) ?_
    calc n * unit * (d' * 2 ^ j) = n * d' * (unit * 2 ^ j) := Nat.mul_mul_mul_comm ..
      _ = n' * d * (unit * 2 ^ j) := by rw [h]
      _ = n' * unit * (d * 2 ^ j) := (Nat.mul_mul_mul_comm ..).symm
  rw [magnitudeBits_eq_of_fits hn hd hj, magnitudeBits_eq_of_fits hn' hd' hj', hq]

/-! ## mantissas -/

/-- The bits of a magnitude are those of the mantissa `q` at the power `j`. -/
structure Canonical (bits j q : Nat) : Prop where
  bits_eq : bits = j * 2 ^ 52 + q
  lt : q < 2 ^ 53
  normal : j = 0 ∨ 2 ^ 52 ≤ q

theorem Canonical.unique {bits j q j' q' : Nat} (h : Canonical bits j q)
    (h' : Canonical bits j' q') : j = j' ∧ q = q' := by
  obtain ⟨hb, hlt, hn⟩ := h
  obtain ⟨hb', hlt', hn'⟩ := h'
  omega

theorem exists_canonical (bits : Nat) : ∃ j q, Canonical bits j q := by
  refine ⟨bits / 2 ^ 52 - 1, bits - (bits / 2 ^ 52 - 1) * 2 ^ 52, ?_, ?_, ?_⟩ <;> omega

theorem decode_of_canonical {bits j q : Nat} (h : Canonical bits j q) (hb : bits < infinityBits) :
    decode (withSign false bits) = .finite false q ((j : Int) - 1074) := by
  obtain ⟨rfl, hlt, hn⟩ := h
  rw [decode_withSign hb]
  split
  · next hz =>
    obtain ⟨rfl, hq⟩ : j = 0 ∧ q < 2 ^ 52 := by omega
    rw [Nat.zero_mul, Nat.zero_add, Nat.mod_eq_of_lt hq]
    rfl
  · next hz =>
    obtain ⟨hq, hj⟩ : 2 ^ 52 + (j * 2 ^ 52 + q) % 2 ^ 52 = q ∧ (j * 2 ^ 52 + q) / 2 ^ 52 = j + 1 := by
      omega
    rw [hq, hj]
    congr 1
    omega

/-- The range of mantissas and exponents. -/
theorem decode_bounds {bits m : Nat} {e : Int} (hb : bits < infinityBits)
    (hx : decode (withSign false bits) = .finite false m e) :
    m < 2 ^ 53 ∧ -1074 ≤ e ∧ e ≤ 971 := by
  obtain ⟨j, q, hq⟩ := exists_canonical bits
  rw [decode_of_canonical hq hb] at hx
  simp only [Decoded.finite.injEq, true_and] at hx
  obtain ⟨rfl, rfl⟩ := hx
  obtain ⟨hbits, hlt, hn⟩ := hq
  simp only [infinityBits] at hb
  omega

theorem ofRatio_of_canonical {bits j q n d : Nat} (h : Canonical bits j q)
    (hb : bits < infinityBits) (hd : 0 < d) (hv : n * unit = d * (q * 2 ^ j)) :
    ofRatio false n d = withSign false bits := by
  have hj := Nat.two_pow_pos j
  rcases Nat.eq_zero_or_pos q with rfl | hq
  · obtain rfl : n = 0 := by
      rw [Nat.zero_mul, Nat.mul_zero] at hv
      exact (Nat.mul_eq_zero.mp hv).resolve_right (Nat.pos_iff_ne_zero.mp unit_pos)
    obtain rfl : j = 0 := h.normal.resolve_right (by decide)
    obtain rfl : bits = 0 := by
      rw [h.bits_eq, Nat.zero_mul]
    rw [ofRatio, if_pos rfl, zero]
  · have hn : 0 < n := by
      refine Nat.pos_of_ne_zero fun hz => ?_
      rw [hz, Nat.zero_mul] at hv
      exact absurd hv (Nat.ne_of_lt (Nat.mul_pos hd (Nat.mul_pos hq hj)))
    have hv' : n * unit = q * (d * 2 ^ j) := by rw [hv, Nat.mul_left_comm]
    have hdj : 0 < d * 2 ^ j := Nat.mul_pos hd hj
    have fits : Fits (n * unit) d j := by
      rw [hv']
      refine ⟨Nat.mul_lt_mul_of_pos_right h.lt hdj, ?_⟩
      exact h.normal.imp id (Nat.mul_le_mul_right _)
    rw [ofRatio, if_neg (Nat.pos_iff_ne_zero.mp hn), magnitudeBits_eq_of_fits hn hd fits, hv',
      nearestQuotient_mul_self hdj, ← h.bits_eq, Nat.min_eq_left (Nat.le_of_lt hb)]

/-- A fraction that is a binary64 number is rounded to that number. -/
theorem ofRatio_of_scaled {bits m n d : Nat} {e : Int} (hb : bits < infinityBits)
    (hx : decode (withSign false bits) = .finite false m e) (hd : 0 < d)
    (hv : n * (scaled m e).2 = d * (scaled m e).1) :
    ofRatio false n d = withSign false bits := by
  obtain ⟨j, q, hc⟩ := exists_canonical bits
  rw [decode_of_canonical hc hb] at hx
  simp only [Decoded.finite.injEq, true_and] at hx
  obtain ⟨rfl, rfl⟩ := hx
  refine ofRatio_of_canonical hc hb hd ?_
  have shift := scaled_shift q j
  have hpos : 0 < (scaled q ((j : Int) - 1074)).2 := by
    cases (j : Int) - 1074 with
    | ofNat k => exact Nat.one_pos
    | negSucc k => exact Nat.two_pow_pos (k + 1)
  generalize scaled q ((j : Int) - 1074) = ab at *
  refine Nat.eq_of_mul_eq_mul_left hpos ?_
  calc ab.2 * (n * unit) = n * ab.2 * unit := by rw [← Nat.mul_assoc, Nat.mul_comm ab.2]
    _ = d * ab.1 * unit := by rw [hv]
    _ = d * (ab.2 * (q * 2 ^ j)) := by rw [Nat.mul_assoc, shift]
    _ = ab.2 * (d * (q * 2 ^ j)) := Nat.mul_left_comm ..

theorem withSign_injective {a b : Nat} (ha : a ≤ infinityBits) (hb : b ≤ infinityBits)
    (h : withSign false a = withSign false b) : a = b := by
  rw [← toNat_toBits_withSign ha, h, toNat_toBits_withSign hb]

theorem scaled_of_whole {j q n : Nat} (h : q * 2 ^ j = n * unit) :
    (scaled q ((j : Int) - 1074)).1 % (scaled q ((j : Int) - 1074)).2 = 0 := by
  have shift := scaled_shift q j
  rw [h, ← Nat.mul_assoc] at shift
  have hs := Nat.eq_of_mul_eq_mul_right unit_pos shift
  rw [hs, Nat.mul_mod_right]

/-- A whole number below the precision is its own mantissa. -/
theorem mantissa_of_ofRatio {bits n i p : Nat} (hb : bits < infinityBits)
    (h : ofRatio false n 1 = withSign false bits) (hc : Canonical bits i p) (hi : i < depth) :
    p * 2 ^ i = n * unit := by
  rcases Nat.eq_zero_or_pos n with rfl | hn
  · rw [ofRatio, if_pos rfl, zero] at h
    obtain rfl : 0 = bits := withSign_injective (Nat.zero_le _) (Nat.le_of_lt hb) h
    obtain rfl : p = 0 := by have := hc.bits_eq; omega
    rw [Nat.zero_mul, Nat.zero_mul]
  · obtain ⟨j, _, hj⟩ := exists_fits hn Nat.one_pos
    rw [ofRatio, if_neg (Nat.pos_iff_ne_zero.mp hn), magnitudeBits_eq_of_fits hn Nat.one_pos hj,
      Nat.one_mul] at h
    have hbits := withSign_injective (Nat.min_le_right _ _) (Nat.le_of_lt hb) h
    have hq : bits = j * 2 ^ 52 + nearestQuotient (n * unit) (2 ^ j) := by omega
    obtain ⟨hlt, hle⟩ := hj
    rw [Nat.one_mul] at hlt hle
    have hpow := Nat.two_pow_pos j
    have hnormal : j = 0 ∨ 2 ^ 52 ≤ nearestQuotient (n * unit) (2 ^ j) :=
      hle.imp id (le_nearestQuotient hpow)
    have hjd : j ≤ depth := by
      obtain ⟨hbi, hp, _⟩ := hc
      omega
    have hu : n * unit = n * 2 ^ (depth - j) * 2 ^ j := by
      rw [unit, Nat.mul_assoc, ← Nat.pow_add, Nat.sub_add_cancel hjd]
    rw [hu, nearestQuotient_mul_self hpow] at hq hnormal
    rw [hu] at hlt ⊢
    have hc' : Canonical bits j (n * 2 ^ (depth - j)) :=
      ⟨hq, Nat.lt_of_mul_lt_mul_right hlt, hnormal⟩
    obtain ⟨rfl, rfl⟩ := hc.unique hc'
    rfl

/-- A whole number is rounded to a whole number or to infinity. -/
theorem whole_of_ofRatio {bits n m : Nat} {e : Int} (hb : bits < infinityBits)
    (h : ofRatio false n 1 = withSign false bits)
    (hx : decode (withSign false bits) = .finite false m e) :
    (scaled m e).1 % (scaled m e).2 = 0 := by
  obtain ⟨i, p, hc⟩ := exists_canonical bits
  rw [decode_of_canonical hc hb] at hx
  simp only [Decoded.finite.injEq, true_and] at hx
  obtain ⟨rfl, rfl⟩ := hx
  rcases Nat.lt_or_ge i depth with hi | hi
  · exact scaled_of_whole (mantissa_of_ofRatio hb h hc hi)
  · have he : (i : Int) - 1074 = ((i - depth : Nat) : Int) := by
      rw [depth_eq] at hi ⊢
      omega
    rw [he]
    exact Nat.mod_one _

end Binary64

end TemplateExpr
