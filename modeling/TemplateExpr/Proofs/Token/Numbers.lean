import TemplateExpr.Proofs.Number.Integers
import TemplateExpr.Proofs.Number.ReadBack
import TemplateExpr.Proofs.Token.Lexing
import TemplateExpr.Expr.Render

/-!
# Number literals

* `Number.IsLiteral`        a number that a literal can stand for has no sign and is no NaN;
* `isLiteral_of_lexes`      the scanner makes only such numbers;
* `spellsNumber_literalText`   the text of such a number is scanned as it.
-/

namespace TemplateExpr

/-- The numbers that literals stand for. -/
def Number.IsLiteral : Number → Prop
  | .int n => 0 ≤ n.toInt
  | .float x => ∃ bits ≤ Binary64.infinityBits, x = Binary64.withSign false bits

/-! ## what the scanner makes -/

theorem Decimal.isLiteral_toFloat (d : Decimal) : (Number.float (d.toFloat false)).IsLiteral := by
  unfold Decimal.toFloat
  dsimp only
  split
  · exact ⟨0, Nat.zero_le _, rfl⟩
  · split
    · exact ⟨_, Nat.le_refl _, rfl⟩
    · rw [Binary64.ofRatio]
      split
      · exact ⟨0, Nat.zero_le _, rfl⟩
      · exact ⟨_, Nat.min_le_right _ _, rfl⟩

theorem Lexeme.isLiteral_of_numberOf? {c : Char} {cs : List Char} {n : Number}
    (hc : c.isDigit = true ∨ c = '.') (h : numberOf? (c :: cs) = some n) : n.IsLiteral := by
  have hfloat : ∀ {n}, (readFloat? (c :: cs)).map Number.float = some n → n.IsLiteral := by
    intro n hn
    rw [readFloat?_of_digit hc, Option.map_map] at hn
    obtain ⟨d, _, rfl⟩ := Option.map_eq_some_iff.mp hn
    exact d.isLiteral_toFloat
  unfold numberOf? at h
  split at h
  · split at h
    · next m hm =>
      rw [Option.some.injEq] at h
      rw [← h, Number.IsLiteral, Number.toInt_of_narrow? hm]
      exact Int.natCast_nonneg _
    · exact hfloat h
  · exact hfloat h

/-- A number is made of a text that starts where the scanner stands. -/
theorem Lexeme.numberToken_of_scanNumber {c : Char} {cs : List Char} {content : Token.Content}
    {size : Nat} (start : startsNumber c cs = true)
    (h : scanNumber (c :: cs) = .token content size) :
    ∃ text, numberToken (c :: text) = .token content size := by
  obtain ⟨more, hmore⟩ : ∃ more, (c :: cs).takeWhile Char.isDigit ++
      (splitFraction ((c :: cs).dropWhile Char.isDigit)).1 = c :: more := by
    by_cases hd : c.isDigit = true
    · rw [List.takeWhile_cons_of_pos hd]
      exact ⟨_, rfl⟩
    · have hc : c = '.' ∧ cs.head?.any Char.isDigit = true := by
        simpa [startsNumber, hd] using start
      obtain ⟨rfl, hr⟩ := hc
      cases cs with
      | nil => simp at hr
      | cons d tail =>
        have hd' : d.isDigit = true := by simpa using hr
        rw [List.takeWhile_cons_of_neg hd, List.dropWhile_cons_of_neg hd, splitFraction,
          if_pos hd']
        exact ⟨_, rfl⟩
  unfold scanNumber at h
  dsimp only at h
  rw [hmore] at h
  split at h
  · split at h
    · split at h
      · simp at h
      · exact ⟨_, h⟩
    · exact ⟨_, h⟩
  · exact ⟨_, h⟩

theorem Lexeme.isLiteral_of_scan {c : Char} {cs : List Char} {n : Number} {size : Nat}
    (h : scan c cs = .token (.number n) size) : n.IsLiteral := by
  unfold scan at h
  split at h
  · simp at h
  · split at h
    · next start =>
      obtain ⟨text, ht⟩ := numberToken_of_scanNumber start h
      have hc : c.isDigit = true ∨ c = '.' := by
        simp only [startsNumber, Bool.or_eq_true, Bool.and_eq_true, beq_iff_eq] at start
        exact start.imp id (·.1)
      unfold numberToken at ht
      split at ht
      · next m hm =>
        simp only [token.injEq, Token.Content.number.injEq] at ht
        rw [← ht.1]
        exact isLiteral_of_numberOf? hc hm
      · simp at ht
    · split at h
      · unfold scanQuotation at h
        split at h <;> simp at h
      · split at h <;> simp at h

/-- The numbers among the tokens of a text. -/
theorem isLiteral_of_lexes {cs : List Char} {ts : List Token} (h : Lexes cs ts) :
    ∀ t ∈ ts, ∀ n, t.content = .number n → n.IsLiteral := by
  induction h with
  | done => simp
  | blank _ _ ih => exact ih
  | token _ hs _ ih =>
    intro t ht n hn
    rcases List.mem_cons.mp ht with rfl | ht
    · simp only at hn
      rw [hn] at hs
      exact Lexeme.isLiteral_of_scan hs
    · exact ih t ht n hn

/-! ## texts of numbers -/

theorem isNamePart_of_isDigit {c : Char} (h : c.isDigit = true) : isNamePart c = true := by
  have hlt : c.toNat < 128 := by
    rw [Char.isDigit_iff_toNat] at h
    simp at h
    omega
  rw [isNamePart, Text.isNumeric, if_pos hlt, h]
  simp

theorem Boundary.not_isDigit {rest : List Char} (h : Boundary rest) :
    ∀ c ∈ rest.head?, c.isDigit = false := by
  intro c hc
  cases hd : c.isDigit with
  | false => rfl
  | true => rw [← isNamePart_of_isDigit hd, h.1 c hc]

namespace Lexeme

theorem splitFraction_of_boundary {rest : List Char} (h : Boundary rest) :
    splitFraction rest = ([], rest) := by
  unfold splitFraction
  split
  · next d tail =>
    have hd : d.isDigit = false := h.2 d rfl rfl
    rw [if_neg (by simp [hd])]
  · rfl

/-- The part of a number before its exponent, where none follows. -/
theorem scanNumber_of_mantissa {cs whole fraction rest : List Char}
    (htake : cs.takeWhile Char.isDigit = whole)
    (hsplit : splitFraction (cs.dropWhile Char.isDigit) = (fraction, rest)) (hb : Boundary rest) :
    scanNumber cs = numberToken (whole ++ fraction) := by
  rw [scanNumber, hsplit, htake]
  dsimp only
  cases rest with
  | nil => rfl
  | cons mark tail =>
    have hmark : isNamePart mark = false := hb.1 mark rfl
    have he : ¬ (mark = 'e' ∨ mark = 'E') := by
      rintro (rfl | rfl)
      · revert hmark; decide
      · revert hmark; decide
    dsimp only
    rw [if_neg he]

theorem scanNumber_digits {ds rest : List Char} (hd : ∀ c ∈ ds, c.isDigit = true)
    (hb : Boundary rest) : scanNumber (ds ++ rest) = numberToken ds := by
  obtain ⟨htake, hdrop⟩ := takeWhile_append_boundary hd hb.not_isDigit
  have := scanNumber_of_mantissa htake (by rw [hdrop, splitFraction_of_boundary hb]) hb
  rwa [List.append_nil] at this

theorem scanNumber_fraction {whole fraction rest : List Char}
    (hw : ∀ c ∈ whole, c.isDigit = true) (hf : ∀ c ∈ fraction, c.isDigit = true)
    (hne : fraction ≠ []) (hb : Boundary rest) :
    scanNumber (whole ++ '.' :: fraction ++ rest) = numberToken (whole ++ '.' :: fraction) := by
  obtain ⟨d, ds, rfl⟩ := List.exists_cons_of_ne_nil hne
  obtain ⟨htake, hdrop⟩ := takeWhile_append_boundary (r := '.' :: d :: ds ++ rest) hw (by
    intro c hc
    obtain rfl : '.' = c := by simpa using hc
    decide)
  obtain ⟨htake', hdrop'⟩ := takeWhile_append_boundary
    (fun c hc => hf c (List.mem_cons_of_mem d hc)) hb.not_isDigit
  rw [List.append_assoc]
  refine scanNumber_of_mantissa htake ?_ hb
  rw [hdrop]
  show splitFraction ('.' :: d :: (ds ++ rest)) = _
  rw [splitFraction, if_pos (hf d (by simp)), htake', hdrop']

theorem numberToken_of_numberOf? {text : List Char} {n : Number} (h : numberOf? text = some n) :
    numberToken text = .token (.number n) text.length := by
  rw [numberToken, h]

theorem numberOf?_fraction {whole fraction : List Char} {x : Float}
    (h : readFloat? (whole ++ '.' :: fraction) = some x) :
    numberOf? (whole ++ '.' :: fraction) = some (.float x) := by
  rw [numberOf?, if_neg, h, Option.map_some]
  simp

end Lexeme

theorem literalText_int (h : Heap) {n : Int64} (hn : 0 ≤ n.toInt) :
    (literalText h (.int n)).toList = Nat.toDigits 10 n.toInt.toNat := by
  show (toString n.toInt).toList = _
  obtain ⟨k, hk⟩ := Int.eq_ofNat_of_zero_le hn
  rw [hk, Int.toNat_natCast, ← Nat.toList_repr]
  rfl

theorem literalText_infinity (h : Heap) :
    literalText h (.float (Binary64.infinity false)) = "1e999" := by
  have hw : writeExpanded (Binary64.infinity false) = none := by
    rw [writeExpanded, Binary64.decode_infinity]
  rw [literalText, hw]
  dsimp only
  rw [if_pos]
  exact Binary64.beq_withSign_self (Nat.le_refl _)

theorem Lexeme.scanNumber_infinity {rest : List Char} (hb : Boundary rest) :
    scanNumber ("1e999".toList ++ rest) = .token (.number (.float (Binary64.infinity false))) 5 := by
  have hd : ∀ c ∈ ['9', '9', '9'], c.isDigit = true := List.all_eq_true.mp (by decide)
  obtain ⟨htake, _⟩ := takeWhile_append_boundary hd hb.not_isDigit
  show (if 'e' = 'e' ∨ 'e' = 'E' then
      if ((['9', '9', '9'] ++ rest).takeWhile Char.isDigit).isEmpty then
        fault .invalidExponent 1 2
      else numberToken (['1', 'e'] ++ (['9', '9', '9'] ++ rest).takeWhile Char.isDigit)
    else numberToken ['1']) = _
  rw [if_pos (.inl rfl), htake, if_neg (by decide)]
  exact numberToken_of_numberOf? rfl

/-- The text is a digit and more, and is scanned as the number. -/
def SpellsNumber (text : String) (n : Number) : Prop :=
  (∃ c cs, text.toList = c :: cs ∧ c.isDigit = true) ∧
    ∀ rest, Boundary rest →
      Lexeme.scanNumber (text.toList ++ rest) = .token (.number n) text.toList.length

theorem spellsNumber_fraction {text : String} {whole fraction : List Char} {x : Float}
    (ht : text.toList = whole ++ '.' :: fraction) (hw : ∀ c ∈ whole, c.isDigit = true)
    (hf : ∀ c ∈ fraction, c.isDigit = true) (hne : whole ≠ []) (hne' : fraction ≠ [])
    (hr : readFloat? text.toList = some x) : SpellsNumber text (.float x) := by
  refine ⟨?_, fun rest hb => ?_⟩
  · obtain ⟨c, cs, rfl⟩ := List.exists_cons_of_ne_nil hne
    exact ⟨c, cs ++ '.' :: fraction, ht, hw c (by simp)⟩
  · rw [ht] at hr ⊢
    rw [Lexeme.scanNumber_fraction hw hf hne' hb]
    exact Lexeme.numberToken_of_numberOf? (Lexeme.numberOf?_fraction hr)

theorem spellsNumber_int (h : Heap) {n : Int64} (hn : 0 ≤ n.toInt) :
    SpellsNumber (literalText h (.int n)) (.int n) := by
  have htext := literalText_int h hn
  have hd : ∀ c ∈ Nat.toDigits 10 n.toInt.toNat, c.isDigit = true :=
    fun c hc => isDigit_toDigits hc
  refine ⟨?_, fun rest hb => ?_⟩
  · obtain ⟨c, cs, hcs⟩ := List.exists_cons_of_ne_nil
      (Nat.toDigits_ne_nil (n := n.toInt.toNat) (b := 10))
    exact ⟨c, cs, htext.trans hcs, hd c (hcs ▸ List.mem_cons_self)⟩
  · rw [htext, Lexeme.scanNumber_digits hd hb]
    apply Lexeme.numberToken_of_numberOf?
    rw [Lexeme.numberOf?, if_pos (List.all_eq_true.mpr hd), Nat.ofDigitChars_ten_toDigits,
      Int.toNat_of_nonneg hn, Number.narrow?_toInt]

theorem spellsNumber_float (h : Heap) {bits : Nat} (hb : bits < Binary64.infinityBits) :
    SpellsNumber (literalText h (.float (Binary64.withSign false bits)))
      (.float (Binary64.withSign false bits)) := by
  rw [literalText]
  cases hw : writeExpanded (Binary64.withSign false bits) with
  | some text =>
    obtain ⟨k, hk, hread⟩ := readFloat?_writeExpanded hb hw
    exact spellsNumber_fraction hk (fun c hc => isDigit_toDigits hc) (by simp)
      Nat.toDigits_ne_nil (by simp) hread
  | none =>
    dsimp only
    rw [if_neg (by rw [Binary64.beq_infinity_eq_false hb]; simp)]
    obtain ⟨coefficient, k, hk, hread⟩ := readFloat?_write_text hb hw
    obtain ⟨whole, fraction, heq, hwhole, hfraction, hne, hlen, _⟩ :=
      Layout.plainDigits_fraction false coefficient k
    have hne' : fraction ≠ [] := by rintro rfl; simp at hlen
    exact spellsNumber_fraction (hk.trans heq) hwhole hfraction hne hne' hread

theorem spellsNumber_infinity (h : Heap) :
    SpellsNumber (literalText h (.float (Binary64.infinity false)))
      (.float (Binary64.infinity false)) := by
  rw [literalText_infinity]
  exact ⟨⟨'1', ['e', '9', '9', '9'], rfl, by decide⟩, fun _ => Lexeme.scanNumber_infinity⟩

/-- The text of a number is scanned as that number. -/
theorem spellsNumber_literalText (h : Heap) {n : Number} (hn : n.IsLiteral) :
    SpellsNumber (literalText h (.ofNumber n)) n := by
  cases n with
  | int n => exact spellsNumber_int h hn
  | float x =>
    obtain ⟨bits, hbits, rfl⟩ := hn
    rcases Nat.lt_or_eq_of_le hbits with hlt | rfl
    · exact spellsNumber_float h hlt
    · exact spellsNumber_infinity h

def Token.ofNumber (text : String) (n : Number) : Token := ⟨0, text, .number n⟩

theorem Lexes.number {text : String} {n : Number} (hn : SpellsNumber text n) {rest : List Char}
    {ts : List Token} (hb : Boundary rest) (h : Lexes rest ts) :
    Lexes (text.toList ++ rest) (Token.ofNumber text n :: ts) := by
  obtain ⟨⟨c, cs, htext, hc⟩, hs⟩ := hn
  have hblank : Text.isBlank c = false := Text.not_isBlank_of_isDigit hc
  have hname : isNameStart c = false := by
    cases hn : isNameStart c with
    | false => rfl
    | true => rw [not_isDigit_of_isNameStart hn] at hc; simp at hc
  have hcons : c :: (cs ++ rest) = text.toList ++ rest := by rw [htext, List.cons_append]
  have hscan : Lexeme.scan c (cs ++ rest) = .token (.number n) text.toList.length := by
    have hnumber : Lexeme.startsNumber c (cs ++ rest) = true := by
      rw [Lexeme.startsNumber, hc, Bool.true_or]
    rw [Lexeme.scan, hname, hnumber, hcons, hs rest hb]
    rfl
  have ht := Lexes.of_scan hcons.symm hblank hscan h
  rwa [String.ofList_toList] at ht

end TemplateExpr
