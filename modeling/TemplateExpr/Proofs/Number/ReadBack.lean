import TemplateExpr.Proofs.Number.Decimals
import TemplateExpr.Proofs.Text.Characters
import TemplateExpr.Number.Reading

/-!
# Written numbers read back

* `readFloat?_fraction`        digits around a point are read as a decimal;
* `readFloat?_writeExpanded`   a whole number with a zero fraction reads back as it;
* `readFloat?_write_text`      and so does the text of any other number.
-/

namespace TemplateExpr

-- Powers are those of core, also where another power of naturals is in scope.
attribute [local instance (high)] instPowNat

open Binary64

/-! ## reading -/

/-- Digits around a point. -/
theorem Decimal.read?_fraction {whole fraction : List Char}
    (hw : ∀ c ∈ whole, c.isDigit = true) (hf : ∀ c ∈ fraction, c.isDigit = true)
    (hne : whole ≠ []) :
    Decimal.read? (whole ++ '.' :: fraction) =
      some ⟨Nat.ofDigitChars 10 (whole ++ fraction) 0, -(fraction.length : Int)⟩ := by
  obtain ⟨htake, hdrop⟩ := takeWhile_append_boundary (r := '.' :: fraction) hw (by
    intro c hc
    obtain rfl : '.' = c := by simpa using hc
    decide)
  obtain ⟨htake', hdrop'⟩ := takeWhile_append_boundary (r := []) hf (by simp)
  rw [List.append_nil] at htake' hdrop'
  simp only [Decimal.read?, htake, hdrop, htake', hdrop']
  rw [if_neg (by simp [hne])]

/-- A text that starts with a digit or a point spells neither a sign nor a special value. -/
theorem readFloat?_of_digit {c : Char} (hc : c.isDigit = true ∨ c = '.') (cs : List Char) :
    readFloat? (c :: cs) = (Decimal.read? (c :: cs)).map (Decimal.toFloat false) := by
  have hlower : c.toLower = c := by
    rcases hc with hc | rfl
    · exact toLower_of_isDigit hc
    · rfl
  have plain : ∀ d : Char, d.isDigit = false → d ≠ '.' → c ≠ d := by
    rintro d hd hp rfl
    rw [hd] at hc
    simp [hp] at hc
  have hword : ∀ (d : Char) (ds : List Char), d.isDigit = false → d ≠ '.' →
      ¬ (c :: cs).map Char.toLower = d :: ds := by
    intro d ds hd hp h
    rw [List.map_cons, hlower, List.cons.injEq] at h
    exact plain d hd hp h.1
  unfold readFloat?
  split
  · next heq =>
    split at heq
    · next h => exact absurd (List.cons.inj h).1 (plain '+' (by decide) (by decide))
    · next h => exact absurd (List.cons.inj h).1 (plain '-' (by decide) (by decide))
    · simp only [Prod.mk.injEq] at heq
      obtain ⟨rfl, rfl⟩ := heq
      dsimp only
      rw [if_neg, if_neg]
      · exact hword _ _ (by decide) (by decide)
      · rintro (h | h)
        · exact hword _ _ (by decide) (by decide) h
        · exact hword _ _ (by decide) (by decide) h

theorem readFloat?_fraction {whole fraction : List Char}
    (hw : ∀ c ∈ whole, c.isDigit = true) (hf : ∀ c ∈ fraction, c.isDigit = true)
    (hne : whole ≠ []) :
    readFloat? (whole ++ '.' :: fraction) =
      some (Decimal.toFloat false
        ⟨Nat.ofDigitChars 10 (whole ++ fraction) 0, -(fraction.length : Int)⟩) := by
  have hread := Decimal.read?_fraction hw hf hne
  cases whole with
  | nil => exact absurd rfl hne
  | cons c cs =>
    rw [List.cons_append, readFloat?_of_digit (.inl (hw c (by simp))), ← List.cons_append, hread,
      Option.map_some]

/-! ## writing -/

theorem isDigit_toDigits {n : Nat} {c : Char} (h : c ∈ Nat.toDigits 10 n) : c.isDigit = true :=
  Nat.isDigit_of_mem_toDigits (by decide) (by decide) h

/-- The digits of a decimal with places stand around a point. -/
theorem Layout.plainDigits_fraction (keep : Bool) (coefficient k : Nat) :
    ∃ whole fraction : List Char, plainDigits keep ⟨coefficient, .negSucc k⟩ =
        whole ++ '.' :: fraction ∧
      (∀ c ∈ whole, c.isDigit = true) ∧ (∀ c ∈ fraction, c.isDigit = true) ∧ whole ≠ [] ∧
      fraction.length = k + 1 ∧ Nat.ofDigitChars 10 (whole ++ fraction) 0 = coefficient := by
  let padded := List.replicate (k + 2 - (Nat.toDigits 10 coefficient).length) '0' ++
    Nat.toDigits 10 coefficient
  have hlen : k + 2 ≤ padded.length := by
    simp only [padded, List.length_append, List.length_replicate]
    omega
  have hdigit : ∀ c ∈ padded, c.isDigit = true := by
    intro c hc
    rcases List.mem_append.mp hc with hc | hc
    · rw [(List.mem_replicate.mp hc).2]; rfl
    · exact isDigit_toDigits hc
  refine ⟨padded.take (padded.length - (k + 1)), padded.drop (padded.length - (k + 1)), rfl,
    fun c hc => hdigit c (List.mem_of_mem_take hc), fun c hc => hdigit c (List.mem_of_mem_drop hc),
    ?_, ?_, ?_⟩
  · intro h
    have := congrArg List.length h
    simp only [List.length_take, List.length_nil] at this
    omega
  · rw [List.length_drop]
    omega
  · rw [List.take_append_drop, Nat.ofDigitChars_append, Nat.ofDigitChars_replicate_zero,
      Nat.mul_zero, Nat.ofDigitChars_ten_toDigits]

/-- A decimal with places reads back as itself. -/
theorem readFloat?_plainDigits (keep : Bool) (coefficient k : Nat) :
    readFloat? (Layout.plainDigits keep ⟨coefficient, .negSucc k⟩) =
      some (Decimal.toFloat false ⟨coefficient, .negSucc k⟩) := by
  obtain ⟨whole, fraction, heq, hw, hf, hne, hlen, hvalue⟩ :=
    Layout.plainDigits_fraction keep coefficient k
  rw [heq, readFloat?_fraction hw hf hne, hvalue, hlen]
  rfl

/-- A whole number with a zero fraction. -/
theorem readFloat?_whole (n : Nat) :
    readFloat? (Nat.toDigits 10 n ++ ['.', '0']) =
      some (Decimal.toFloat false ⟨10 * n, -1⟩) := by
  have hzero : ∀ c ∈ ['0'], c.isDigit = true := by simp
  rw [readFloat?_fraction (fun c hc => isDigit_toDigits hc) hzero Nat.toDigits_ne_nil,
    Nat.ofDigitChars_append, Nat.ofDigitChars_ten_toDigits]
  rfl

theorem scaled_fst_lt {m n : Nat} {e : Int} (hm : m < 2 ^ 53) (he : e ≤ 971) (hn : 79 ≤ n) :
    (scaled m e).1 < 10 ^ (4 * n) := by
  cases e with
  | ofNat k =>
    calc m * 2 ^ k < 2 ^ 53 * 2 ^ k := Nat.mul_lt_mul_of_pos_right hm (Nat.two_pow_pos k)
      _ = 2 ^ (53 + k) := (Nat.pow_add ..).symm
      _ ≤ 10 ^ (4 * n) := Decimal.two_pow_le (by simp only [Int.ofNat_eq_natCast] at he; omega)
  | negSucc k => exact Nat.lt_of_lt_of_le hm (Decimal.two_pow_le (by omega))

/-- A whole number is read back from its digits and a zero fraction. -/
theorem toFloat_whole {bits m n : Nat} {e : Int} (hb : bits < infinityBits)
    (hx : decode (withSign false bits) = .finite false m e)
    (hn : (scaled m e).1 = n * (scaled m e).2) :
    Decimal.toFloat false ⟨10 * n, -1⟩ = withSign false bits := by
  rcases Nat.eq_zero_or_pos n with rfl | hpos
  · have hzero : ofRatio false 0 1 = withSign false bits := by
      refine ofRatio_of_scaled hb hx Nat.one_pos ?_
      rw [hn, Nat.zero_mul, Nat.mul_zero]
    rw [← hzero]
    rfl
  · obtain ⟨k, hk⟩ : ∃ k, k = 79 := ⟨79, rfl⟩
    obtain ⟨hlt, _, he⟩ := decode_bounds hb hx
    have hle : n ≤ (scaled m e).1 := by
      have : (scaled m e).2 ≠ 0 := by
        cases e with
        | ofNat k => exact Nat.one_ne_zero
        | negSucc k => exact Nat.pos_iff_ne_zero.mp (Nat.two_pow_pos (k + 1))
      rw [hn]
      exact Nat.le_mul_of_pos_right n (Nat.pos_of_ne_zero this)
    have hcount : Decimal.digitCount n ≤ 4 * k :=
      Decimal.digitCount_le (by omega) (Nat.lt_of_le_of_lt hle (scaled_fst_lt hlt he (by omega)))
    have hplace : Decimal.place ⟨10 * n, -1⟩ = Decimal.digitCount n := by
      simp only [Decimal.place, Decimal.digitCount_mul_ten hpos]
      omega
    rw [Decimal.toFloat_of_place (by simp only; omega) (by omega) (by omega)]
    refine ofRatio_of_scaled hb hx (Decimal.ratio_snd_pos _) ?_
    show 10 * n * (scaled m e).2 = 10 ^ (0 + 1) * (scaled m e).1
    rw [hn, Nat.mul_assoc]

/-- A whole number is written so that it reads back as a float. -/
theorem readFloat?_writeExpanded {bits : Nat} {text : String} (hb : bits < infinityBits)
    (h : writeExpanded (withSign false bits) = some text) :
    ∃ n, text.toList = Nat.toDigits 10 n ++ ['.', '0'] ∧
      readFloat? text.toList = some (withSign false bits) := by
  obtain ⟨j, q, hq⟩ := exists_canonical bits
  have hx := decode_of_canonical hq hb
  simp only [writeExpanded, hx] at h
  split at h
  · next hmod =>
    have hn : (scaled q ((j : Int) - 1074)).1 = (scaled q ((j : Int) - 1074)).1 /
        (scaled q ((j : Int) - 1074)).2 * (scaled q ((j : Int) - 1074)).2 :=
      (Nat.div_mul_cancel (Nat.dvd_of_mod_eq_zero hmod)).symm
    generalize (scaled q ((j : Int) - 1074)).1 / (scaled q ((j : Int) - 1074)).2 = n at *
    have htext : text.toList = Nat.toDigits 10 n ++ ['.', '0'] := by
      rw [Option.some.injEq] at h
      rw [← h, String.toList_ofList]
      simp [Layout.plainDigits]
    refine ⟨n, htext, ?_⟩
    rw [htext, readFloat?_whole, toFloat_whole hb hx hn]
  · simp at h

/-- A decimal without places is a whole number, or too large. -/
theorem whole_of_toFloat {bits m k : Nat} {e : Int} {d : Decimal} (hb : bits < infinityBits)
    (hx : decode (withSign false bits) = .finite false m e) (hk : d.exponent = .ofNat k)
    (h : d.toFloat false = withSign false bits) : (scaled m e).1 % (scaled m e).2 = 0 := by
  simp only [Decimal.toFloat] at h
  split at h
  · exact whole_of_ofRatio (n := 0) hb (by rw [← h, ofRatio, if_pos rfl]) hx
  · split at h
    · have := withSign_injective (Nat.le_refl _) (Nat.le_of_lt hb) h
      omega
    · rw [Decimal.ratio, hk] at h
      exact whole_of_ofRatio hb h hx

theorem decimal_eta_negSucc {d : Decimal} {k : Nat} (h : d.exponent = .negSucc k) :
    d = ⟨d.coefficient, .negSucc k⟩ := by rw [← h]

/-- Any other number is written with places, and reads back. -/
theorem readFloat?_write_text {bits : Nat} (hb : bits < infinityBits)
    (h : writeExpanded (withSign false bits) = none) :
    ∃ c k, (Layout.text.write (withSign false bits)).toList =
        Layout.plainDigits false ⟨c, .negSucc k⟩ ∧
      readFloat? (Layout.text.write (withSign false bits)).toList =
        some (withSign false bits) := by
  obtain ⟨j, q, hq⟩ := exists_canonical bits
  have hx := decode_of_canonical hq hb
  have hfraction : ¬ (scaled q ((j : Int) - 1074)).1 % (scaled q ((j : Int) - 1074)).2 = 0 := by
    intro hmod
    simp only [writeExpanded, hx, if_pos hmod] at h
    simp at h
  have hpos : 0 < q := by
    refine Nat.pos_of_ne_zero fun hz => hfraction ?_
    rw [hz]
    cases (j : Int) - 1074 with
    | ofNat k => exact Nat.mod_one _
    | negSucc k => exact Nat.zero_mod _
  have hd : (Decimal.shortest .up q ((j : Int) - 1074)).toFloat false = withSign false bits := by
    rw [Decimal.toFloat_shortest, Decimal.toFloat_exact hb hpos hx]
  have htext : (Layout.text.write (withSign false bits)).toList =
      Layout.plainDigits false (Decimal.shortest .up q ((j : Int) - 1074)) := by
    rw [Layout.write, hx]
    simp [Layout.magnitude, Layout.text, Nat.pos_iff_ne_zero.mp hpos]
  cases hexp : (Decimal.shortest .up q ((j : Int) - 1074)).exponent with
  | ofNat k =>
    exact absurd (whole_of_toFloat hb hx hexp hd) hfraction
  | negSucc k =>
    rw [decimal_eta_negSucc hexp] at htext hd
    exact ⟨_, k, htext, by rw [htext, readFloat?_plainDigits, hd]⟩

end TemplateExpr
