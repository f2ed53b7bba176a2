import TemplateExpr.Number.Reading
import TemplateExpr.Text.Blank
import TemplateExpr.Token
import TemplateExpr.Token.Quotation

/-!
# From source text to tokens

A cursor stands in a source text and moves over one token at a time. After a fault it stands where
reading stopped, and can go on from there.

* `Lexeme.scan`      the token or fault at the start of a text;
* `Cursor.next`      skips blanks and scans;
* `Token.scan`       all tokens of a source text.
-/

namespace TemplateExpr

/-- What stands at the start of a text. -/
inductive Lexeme where
  /-- A token, and how many characters spell it. -/
  | token (content : Token.Content) (size : Nat)
  /-- A fault, how many characters stand before it, and how many were read. -/
  | fault (fault : LexFault) (offset size : Nat)

namespace Lexeme

/-! ## numbers -/

/-- A point and digits, if the text starts with them, and the text after them. -/
def splitFraction : List Char → List Char × List Char
  | '.' :: d :: rest =>
    if d.isDigit then ('.' :: d :: rest.takeWhile Char.isDigit, rest.dropWhile Char.isDigit)
    else ([], '.' :: d :: rest)
  | cs => ([], cs)

/-- A sign, if the text starts with one, and the text after it. -/
def splitSign : List Char → List Char × List Char
  | '+' :: rest => (['+'], rest)
  | '-' :: rest => (['-'], rest)
  | cs => ([], cs)

/-- The number that a literal stands for: digits alone are an integer if it has 64 bits. -/
def numberOf? (text : List Char) : Option Number :=
  if text.all Char.isDigit then
    match Number.narrow? (Nat.ofDigitChars 10 text 0) with
    | some n => some (.int n)
    | none => (readFloat? text).map .float
  else (readFloat? text).map .float

def numberToken (text : List Char) : Lexeme :=
  match numberOf? text with
  | some n => token (.number n) text.length
  | none => fault (.invalidNumber (String.ofList text)) 0 text.length

/-- A number: digits, a fraction and an exponent. -/
def scanNumber (cs : List Char) : Lexeme :=
  let (fraction, rest) := splitFraction (cs.dropWhile Char.isDigit)
  let mantissa := cs.takeWhile Char.isDigit ++ fraction
  match rest with
  | mark :: tail =>
    if mark = 'e' ∨ mark = 'E' then
      let (sign, digits) := splitSign tail
      let exponent := digits.takeWhile Char.isDigit
      if exponent.isEmpty then
        fault .invalidExponent mantissa.length (mantissa.length + 1 + sign.length)
      else numberToken (mantissa ++ mark :: sign ++ exponent)
    else numberToken mantissa
  | [] => numberToken mantissa

/-! ## the other tokens -/

/-- The symbols of one character that no other symbol starts with. -/
def plainSymbols : List Char :=
  ['(', ')', '[', ']', '\x7b', '\x7d', '.', ',', ':', ';', '?', '+', '-', '*', '/', '%']

/-- The symbols that an equals sign may follow. -/
def comparisonStarts : List Char := ['=', '!', '<', '>']

/-- How many characters the symbol has that starts with `c` before `rest`. -/
def symbolLength? (c : Char) (rest : List Char) : Option Nat :=
  if plainSymbols.contains c then some 1
  else if comparisonStarts.contains c then some (if rest.head? = some '=' then 2 else 1)
  else if c = '|' then some (if rest.head? = some '|' then 2 else 1)
  else if c = '&' ∧ rest.head? = some '&' then some 2
  else if c = '~' ∧ rest.head? = some '/' then some 2
  else none

def scanQuotation (quote : Char) (rest : List Char) : Lexeme :=
  match Quotation.scan quote rest with
  | .closed content size => token (.str (String.ofList content)) (1 + size)
  | .badEscape digits offset =>
    fault (.invalidEscape (String.ofList digits)) (1 + offset) (2 + offset)
  | .unclosed => fault .unterminatedQuote 0 (1 + rest.length)

/-- The text starts a number: with a digit, or with a point before one. -/
def startsNumber (c : Char) (rest : List Char) : Bool :=
  c.isDigit || (c == '.' && rest.head?.any Char.isDigit)

def scan (c : Char) (rest : List Char) : Lexeme :=
  if isNameStart c then token .word (1 + (rest.takeWhile isNamePart).length)
  else if startsNumber c rest then scanNumber (c :: rest)
  else if c = '"' ∨ c = '\'' then scanQuotation c rest
  else
    match symbolLength? c rest with
    | some n => token .symbol n
    | none => fault (.unexpectedCharacter c) 0 0

/-! ## scanning goes forward -/

theorem length_dropWhile_le {α : Type} (p : α → Bool) (xs : List α) :
    (xs.dropWhile p).length ≤ xs.length :=
  (List.dropWhile_suffix p).length_le

theorem length_splitFraction_le (cs : List Char) : (splitFraction cs).2.length ≤ cs.length := by
  unfold splitFraction
  split
  · next d rest =>
    split
    · have := length_dropWhile_le Char.isDigit rest
      simp only [List.length_cons]; omega
    · exact Nat.le_refl _
  · exact Nat.le_refl _

theorem length_splitSign_le (cs : List Char) : (splitSign cs).2.length ≤ cs.length := by
  unfold splitSign
  split <;> simp

theorem size_numberToken {text : List Char} {content : Token.Content} {size : Nat}
    (h : numberToken text = token content size) : size = text.length := by
  unfold numberToken at h
  split at h
  · simp only [token.injEq] at h; exact h.2.symm
  · simp at h

/-- A number starts with a digit or with a point before one. -/
theorem mantissa_length_pos {c : Char} {rest : List Char} (h : startsNumber c rest = true) :
    0 < ((c :: rest).takeWhile Char.isDigit ++
      (splitFraction ((c :: rest).dropWhile Char.isDigit)).1).length := by
  by_cases hd : c.isDigit = true
  · rw [List.takeWhile_cons_of_pos hd]
    simp
  · have hc : c = '.' ∧ rest.head?.any Char.isDigit = true := by
      simpa [startsNumber, hd] using h
    obtain ⟨rfl, hr⟩ := hc
    cases rest with
    | nil => simp at hr
    | cons d tail =>
      have hd' : d.isDigit = true := by simpa using hr
      rw [List.dropWhile_cons_of_neg hd]
      simp [splitFraction, hd']

theorem size_scanNumber_pos {c : Char} {cs : List Char} {content : Token.Content} {size : Nat}
    (start : startsNumber c cs = true) (h : scanNumber (c :: cs) = token content size) :
    0 < size := by
  have pos := mantissa_length_pos start
  unfold scanNumber at h
  generalize splitFraction ((c :: cs).dropWhile Char.isDigit) = split at *
  obtain ⟨fraction, after⟩ := split
  simp only at h pos
  split at h
  · split at h
    · split at h
      · simp at h
      · rw [size_numberToken h]
        simp only [List.length_append] at pos ⊢; omega
    · rw [size_numberToken h]; exact pos
  · rw [size_numberToken h]; exact pos

theorem symbolLength_pos {c : Char} {rest : List Char} {n : Nat}
    (h : symbolLength? c rest = some n) : 0 < n := by
  unfold symbolLength? at h
  split at h
  · simp only [Option.some.injEq] at h; omega
  · split at h
    · simp only [Option.some.injEq] at h; split at h <;> omega
    · split at h
      · simp only [Option.some.injEq] at h; split at h <;> omega
      · split at h
        · simp only [Option.some.injEq] at h; omega
        · split at h
          · simp only [Option.some.injEq] at h; omega
          · simp at h

theorem size_scan_pos {c : Char} {cs : List Char} {content : Token.Content} {size : Nat}
    (h : scan c cs = token content size) : 0 < size := by
  unfold scan at h
  split at h
  · simp only [token.injEq] at h; omega
  · split at h
    · next start => exact size_scanNumber_pos start h
    · split at h
      · unfold scanQuotation at h
        split at h
        · simp only [token.injEq] at h; omega
        · simp at h
        · simp at h
      · split at h
        · next hn =>
          simp only [token.injEq] at h
          rw [← h.2]; exact symbolLength_pos hn
        · simp at h

end Lexeme

/-- A place in a source text: how many characters are behind it, and the text ahead. -/
structure Cursor where
  offset : Nat
  rest : List Char

namespace Cursor

def start (source : String) : Cursor := ⟨0, source.toList⟩

def skipBlanks (c : Cursor) : Cursor :=
  ⟨c.offset + (c.rest.takeWhile Text.isBlank).length, c.rest.dropWhile Text.isBlank⟩

def advance (c : Cursor) (size : Nat) : Cursor := ⟨c.offset + size, c.rest.drop size⟩

/-- The outcome of asking for the next token, with the cursor afterwards. -/
inductive Step where
  | done (cursor : Cursor)
  | token (t : Token) (cursor : Cursor)
  | error (e : LexError) (cursor : Cursor)

/-- Scans at the cursor, before which no blank is skipped. -/
def read (source : String) (cursor : Cursor) : Step :=
  match cursor.rest with
  | [] => .done cursor
  | c :: tail =>
    match Lexeme.scan c tail with
    | .token content size =>
      .token ⟨cursor.offset, String.ofList (cursor.rest.take size), content⟩
        (cursor.advance size)
    | .fault fault offset size =>
      .error ⟨fault, cursor.offset + offset + 1, source⟩ (cursor.advance size)

def next (source : String) (cursor : Cursor) : Step := cursor.skipBlanks.read source

theorem length_read_lt {source : String} {c c' : Cursor} {t : Token}
    (h : c.read source = .token t c') : c'.rest.length < c.rest.length := by
  unfold read at h
  split at h
  · simp at h
  · next d tail hd =>
    split at h
    · next content size hs =>
      have := Lexeme.size_scan_pos hs
      simp only [Step.token.injEq] at h
      rw [← h.2, hd]
      simp only [advance, hd, List.length_drop, List.length_cons]
      omega
    · simp at h

theorem length_next_lt {source : String} {c c' : Cursor} {t : Token}
    (h : c.next source = .token t c') : c'.rest.length < c.rest.length :=
  Nat.lt_of_lt_of_le (length_read_lt h) (Lexeme.length_dropWhile_le Text.isBlank c.rest)

/-- All tokens from the cursor on. -/
def tokens (source : String) (c : Cursor) : Except LexError (List Token) :=
  match _next : c.next source with
  | .done _ => .ok []
  | .token t c' => (tokens source c').map (t :: ·)
  | .error e _ => .error e
termination_by c.rest.length
decreasing_by exact length_next_lt _next

end Cursor

/-- The tokens of a source text. -/
def Token.scan (source : String) : Except LexError (List Token) :=
  (Cursor.start source).tokens source

end TemplateExpr
