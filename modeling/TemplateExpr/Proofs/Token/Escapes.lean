import Mathlib.Data.List.Forall2
import TemplateExpr.Text.Quoted
import TemplateExpr.Token.Quotation

/-!
# Escaped texts

Between quotes a character can be written in several ways. Whichever is taken for each character
of a text, the scanner gives the text back and stops behind the closing quote.

* `Quotation.Spells`       the ways to write one character;
* `Quotation.scan_spells`  each of them is read as the character;
* `Quotation.scan_pieces`  a text that is written character by character is read back;
* `Quotation.exists_pieces_escape`   what stands between the quotes of `Text.quoted` is such a text.
-/

namespace TemplateExpr.Quotation

/-! ## ways to write a character -/

/-- The letters that name control characters after a backslash. -/
def controls : List (Char × Char) :=
  [('n', '\n'), ('f', '\x0c'), ('r', '\r'), ('t', '\t'), ('v', '\x0b')]

/-- The four places of a code to the base sixteen. -/
def places (code : Nat) : List Nat :=
  [code / 4096, code / 256 % 16, code / 16 % 16, code % 16]

/-- The character is the digit of a place, as a small or a capital letter. -/
def IsDigitOf (place : Nat) (digit : Char) : Prop :=
  digit ∈ [Nat.digitChar place, (Nat.digitChar place).toUpper]

/-- The ways to write a character between two quotes. -/
inductive Spells (quote : Char) : Char → List Char → Prop where
  | raw {c} : c ≠ quote → c ≠ '\\' → Spells quote c [c]
  /-- After a backslash a character stands for itself, unless it begins another escape. -/
  | kept {c} : c ∉ 'u' :: controls.map Prod.fst → Spells quote c ['\\', c]
  | named {letter c} : (letter, c) ∈ controls → Spells quote c ['\\', letter]
  | code {c digits} : c.toNat ≤ 0xffff → List.Forall₂ IsDigitOf (places c.toNat) digits →
      Spells quote c ('\\' :: 'u' :: digits)

/-! ## escapes are read back -/

theorem unescape_of_not_mem {c : Char} (h : c ∉ 'u' :: controls.map Prod.fst) :
    c ≠ 'u' ∧ unescape c = c := by
  simp only [controls, List.map_cons, List.map_nil, List.mem_cons, List.not_mem_nil, or_false,
    not_or] at h
  obtain ⟨hu, hn, hf, hr, ht, hv⟩ := h
  refine ⟨hu, ?_⟩
  rw [unescape, if_neg hn, if_neg hf, if_neg hr, if_neg ht, if_neg hv]

theorem unescape_of_mem {letter c : Char} (h : (letter, c) ∈ controls) :
    letter ≠ 'u' ∧ unescape letter = c := by
  have hall : ∀ p ∈ controls, p.1 ≠ 'u' ∧ unescape p.1 = p.2 := by decide
  exact hall (letter, c) h

theorem hexValue_of_isDigitOf {place : Nat} (hlt : place < 16) {digit : Char}
    (h : IsDigitOf place digit) : isHexDigit digit = true ∧ hexValue digit = place := by
  have hlower : ∀ place < 16,
      isHexDigit (Nat.digitChar place) = true ∧ hexValue (Nat.digitChar place) = place := by decide
  have hupper : ∀ place < 16, isHexDigit (Nat.digitChar place).toUpper = true ∧
      hexValue (Nat.digitChar place).toUpper = place := by decide
  rcases List.mem_cons.mp h with rfl | h
  · exact hlower place hlt
  · rw [List.mem_singleton.mp h]
    exact hupper place hlt

theorem length_places (code : Nat) : (places code).length = 4 := rfl

theorem places_lt {code : Nat} (h : code ≤ 0xffff) : ∀ place ∈ places code, place < 16 := by
  simp only [places, List.mem_cons, List.not_mem_nil, or_false, forall_eq_or_imp, forall_eq]
  omega

theorem foldl_places {code : Nat} : (places code).foldl (16 * · + ·) 0 = code := by
  simp only [places, List.foldl_cons, List.foldl_nil]
  omega

/-- Digits for the places of a code are hexadecimal digits with the values of the places. -/
theorem hexValues_of_forall₂ {ps : List Nat} {digits : List Char} (hps : ∀ place ∈ ps, place < 16)
    (h : List.Forall₂ IsDigitOf ps digits) :
    digits.all isHexDigit = true ∧ digits.map hexValue = ps := by
  induction h with
  | nil => exact ⟨rfl, rfl⟩
  | cons hdigit _ ih =>
    obtain ⟨hhex, hvalue⟩ := hexValue_of_isDigitOf (hps _ List.mem_cons_self) hdigit
    obtain ⟨hall, hmap⟩ := ih fun place hplace => hps place (List.mem_cons_of_mem _ hplace)
    rw [List.all_cons, hhex, hall, List.map_cons, hvalue, hmap]
    exact ⟨rfl, rfl⟩

theorem decodeHex?_of_places {c : Char} {digits : List Char} (hc : c.toNat ≤ 0xffff)
    (h : List.Forall₂ IsDigitOf (places c.toNat) digits) : decodeHex? digits = some c := by
  obtain ⟨hall, hmap⟩ := hexValues_of_forall₂ (places_lt hc) h
  have hlength : digits.length = 4 := h.length_eq.symm.trans (length_places _)
  have hcode : digits.foldl (fun n d => 16 * n + hexValue d) 0 = c.toNat := by
    rw [← List.foldl_map (f := hexValue) (g := fun n value => 16 * n + value), hmap]
    exact foldl_places
  have hvalid : c.toNat.isValidChar := c.valid
  rw [decodeHex?, if_pos ⟨hlength, hall⟩]
  dsimp only
  rw [hcode, if_pos hvalid, Char.ofNat_toNat]

/-! ## the scanner -/

variable {quote : Char}

theorem scan_quote (quote : Char) (rest : List Char) :
    scan quote (quote :: rest) = closed [] 1 := by
  rw [scan.eq_def]
  exact if_pos rfl

theorem scan_backslash (hquote : quote ≠ '\\') {e : Char} (he : e ≠ 'u') (rest : List Char) :
    scan quote ('\\' :: e :: rest) = cons (unescape e) 2 (scan quote rest) := by
  rw [scan.eq_def]
  simp only [if_neg hquote.symm, if_true, if_neg he]

/-- However a character is written, it is read as the character. -/
theorem scan_spells (hquote : quote ≠ '\\') {c : Char} {piece : List Char}
    (h : Spells quote c piece) (rest : List Char) :
    scan quote (piece ++ rest) = cons c piece.length (scan quote rest) := by
  cases h with
  | raw hc hescape =>
    rw [List.singleton_append, scan.eq_def]
    simp only [if_neg hc, if_neg hescape]
    rfl
  | kept hc =>
    obtain ⟨hu, hself⟩ := unescape_of_not_mem hc
    show scan quote ('\\' :: c :: rest) = _
    rw [scan_backslash hquote hu, hself]
    rfl
  | named hc =>
    obtain ⟨hu, hcontrol⟩ := unescape_of_mem hc
    show scan quote ('\\' :: _ :: rest) = _
    rw [scan_backslash hquote hu, hcontrol]
    rfl
  | @code _ digits hc hdigits =>
    have hlength : digits.length = 4 := hdigits.length_eq.symm.trans (length_places _)
    have hdecoded := decodeHex?_of_places hc hdigits
    show scan quote ('\\' :: 'u' :: (digits ++ rest)) = _
    rw [scan.eq_def]
    simp only [if_neg hquote.symm, if_true, List.take_left' hlength, List.drop_left' hlength,
      hdecoded, List.length_cons, hlength]

theorem scan_pieces (hquote : quote ≠ '\\') {s : List Char} {pieces : List (List Char)}
    (h : List.Forall₂ (Spells quote) s pieces) (rest : List Char) :
    scan quote (pieces.flatten ++ quote :: rest) = closed s (pieces.flatten.length + 1) := by
  induction h with
  | nil => exact scan_quote quote rest
  | @cons c piece s pieces hpiece _ ih =>
    rw [List.flatten_cons, List.append_assoc, scan_spells hquote hpiece, ih, cons,
      List.length_append, Nat.add_assoc]

/-! ## texts as they are quoted -/

theorem exists_pieces_escape (s : List Char) :
    ∃ pieces, List.Forall₂ (Spells '"') s pieces ∧ pieces.flatten = Text.escape s := by
  induction s with
  | nil => exact ⟨[], .nil, rfl⟩
  | cons c s ih =>
    obtain ⟨pieces, hpieces, hflatten⟩ := ih
    by_cases hc : c = '"' ∨ c = '\\'
    · refine ⟨['\\', c] :: pieces, .cons (.kept ?_) hpieces, ?_⟩
      · rcases hc with rfl | rfl <;> decide
      · rw [List.flatten_cons, hflatten, Text.escape, if_pos hc]
        rfl
    · refine ⟨[c] :: pieces, .cons ?_ hpieces, ?_⟩
      · exact .raw (fun hquote => hc (.inl hquote)) fun hescape => hc (.inr hescape)
      · rw [List.flatten_cons, hflatten, Text.escape, if_neg hc]
        rfl

end TemplateExpr.Quotation
