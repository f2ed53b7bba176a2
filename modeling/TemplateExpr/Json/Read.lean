import TemplateExpr.Json
import TemplateExpr.Token.Scan

/-!
# Reading JSON documents

The text is read strictly: nothing may stand before or after the document but blanks, containers
are nested at most 127 deep, and a float that is out of range is refused. The last of the fields
with one name counts.

* `Json.read?`   the document that a text spells.
-/

namespace TemplateExpr.Json

-- Powers are those of core, also where another power of naturals is in scope.
attribute [local instance (high)] instPowNat

/-- What was read, and fewer than `bound` characters that are left. -/
structure Read (α : Type) (bound : Nat) where
  value : α
  rest : List Char
  shorter : rest.length < bound

def isBlank (c : Char) : Bool := c == ' ' || c == '\t' || c == '\n' || c == '\r'

/-- What starts with the first character that is not blank. -/
def skipBlanks (cs : List Char) : List Char := cs.dropWhile isBlank

theorem length_skipBlanks_le (cs : List Char) : (skipBlanks cs).length ≤ cs.length :=
  Lexeme.length_dropWhile_le isBlank cs

/-! ## numbers -/

/-- An exponent, if the text starts with its mark, a sign and digits, and the text after it. -/
def splitExponent (cs : List Char) : Option Int × List Char :=
  match cs with
  | [] => (none, [])
  | mark :: tail =>
    let (sign, digits) := Lexeme.splitSign tail
    let exponent := digits.takeWhile Char.isDigit
    if (mark = 'e' ∨ mark = 'E') ∧ exponent ≠ [] then
      let n : Int := Nat.ofDigitChars 10 exponent 0
      (some (if sign = ['-'] then -n else n), digits.dropWhile Char.isDigit)
    else (none, cs)

theorem length_splitExponent_le (cs : List Char) :
    (splitExponent cs).2.length ≤ cs.length := by
  cases cs with
  | nil => simp [splitExponent]
  | cons mark tail =>
    have h1 := Lexeme.length_splitSign_le tail
    have h2 := Lexeme.length_dropWhile_le Char.isDigit (Lexeme.splitSign tail).2
    simp only [splitExponent]
    split
    · simp only [List.length_cons]; omega
    · exact Nat.le_refl _

/-- An integer literal stays an integer if it has 64 bits, with its sign; minus zero is a
float. -/
def ofInteger? (negative : Bool) (n : Nat) : Option Json :=
  if negative then
    if 0 < n ∧ n ≤ 2 ^ (63 : Nat) then some (int (-n)) else none
  else if n < 2 ^ (64 : Nat) then some (int n)
  else none

def ofDecimal? (negative : Bool) (d : Decimal) : Option Json :=
  let x := d.toFloat negative
  if x.isFinite then some (float x) else none

/-- A number without its sign. A zero at the front stands alone. -/
def number? (negative : Bool) (cs : List Char) : Option (Read Json cs.length) :=
  match cs with
  | [] => none
  | c :: tail =>
    if c.isDigit then
      let more := if c = '0' then [] else tail.takeWhile Char.isDigit
      let after := if c = '0' then tail else tail.dropWhile Char.isDigit
      let fraction := Lexeme.splitFraction after
      let exponent := splitExponent fraction.2
      have shorter : exponent.2.length < (c :: tail).length := by
        have h1 : after.length ≤ tail.length := by
          simp only [after]
          split
          · exact Nat.le_refl _
          · exact Lexeme.length_dropWhile_le Char.isDigit tail
        have h2 := Lexeme.length_splitFraction_le after
        have h3 := length_splitExponent_le fraction.2
        simp only [List.length_cons, fraction, exponent] at *
        omega
      let digits := c :: more ++ fraction.1.drop 1
      let coefficient := Nat.ofDigitChars 10 digits 0
      let integer :=
        if fraction.1.isEmpty && exponent.1.isNone then ofInteger? negative coefficient
        else none
      match integer <|> ofDecimal? negative
          ⟨coefficient, exponent.1.getD 0 - (fraction.1.length - 1 : Nat)⟩ with
      | some j => some ⟨j, exponent.2, shorter⟩
      | none => none
    else none

/-! ## strings -/

/-- Four hexadecimal digits. -/
def code? (cs : List Char) : Option (Read Nat cs.length) :=
  if h : (cs.take 4).length = 4 ∧ (cs.take 4).all Quotation.isHexDigit then
    some ⟨(cs.take 4).foldl (fun n c => 16 * n + Quotation.hexValue c) 0, cs.drop 4, by
      have := h.1
      simp only [List.length_take, List.length_drop] at *
      omega⟩
  else none

/-- The character of a code; a code above the plane of 16 bits is spelled by two. -/
def codePoint? (cs : List Char) : Option (Read Char cs.length) :=
  match code? cs with
  | none => none
  | some ⟨high, rest, h⟩ =>
    if 0xd800 ≤ high ∧ high < 0xdc00 then
      match rest, h with
      | '\\' :: 'u' :: rest, h =>
        match code? rest with
        | none => none
        | some ⟨low, rest', h'⟩ =>
          if 0xdc00 ≤ low ∧ low < 0xe000 then
            some ⟨Char.ofNat (0x10000 + (high - 0xd800) * 0x400 + (low - 0xdc00)), rest', by
              simp only [List.length_cons] at h
              omega⟩
          else none
      | _, _ => none
    else if 0xdc00 ≤ high ∧ high < 0xe000 then none
    else some ⟨Char.ofNat high, rest, h⟩

/-- What a backslash and the characters after it stand for. -/
def escaped? (cs : List Char) : Option (Read Char cs.length) :=
  match cs with
  | [] => none
  | c :: rest =>
    if c = 'u' then
      (codePoint? rest).map fun r => ⟨r.value, r.rest, Nat.lt_succ_of_lt r.shorter⟩
    else
      let found := [('"', '"'), ('\\', '\\'), ('/', '/'), ('b', '\x08'), ('f', '\x0c'),
        ('n', '\n'), ('r', '\r'), ('t', '\t')].lookup c
      found.map fun d => ⟨d, rest, by simp⟩

/-- A string after its opening quote. -/
def string? (cs : List Char) : Option (Read (List Char) cs.length) :=
  match cs with
  | [] => none
  | c :: rest =>
    if c = '"' then some ⟨[], rest, by simp⟩
    else if c = '\\' then
      match escaped? rest with
      | none => none
      | some ⟨d, rest₁, h₁⟩ =>
        match string? rest₁ with
        | none => none
        | some ⟨ds, rest₂, h₂⟩ =>
          some ⟨d :: ds, rest₂, by simp only [List.length_cons]; omega⟩
    else if c.toNat < 32 then none
    else
      match string? rest with
      | none => none
      | some ⟨ds, rest₁, h₁⟩ => some ⟨c :: ds, rest₁, by simp only [List.length_cons]; omega⟩
termination_by cs.length
decreasing_by all_goals simp only [List.length_cons]; omega

/-! ## documents -/

/-- The text after a word at the front. -/
def word? (word : List Char) (j : Json) (cs : List Char) : Option (Read Json cs.length) :=
  if h : word <+: cs ∧ word ≠ [] then
    some ⟨j, cs.drop word.length, by
      have h1 := h.1.length_le
      have h2 := List.length_pos_iff.2 h.2
      simp only [List.length_drop]
      omega⟩
  else none

mutual

/-- A document at the front of the text, in which fewer than `depth` containers are nested. -/
def value? (depth : Nat) (cs : List Char) : Option (Read Json cs.length) :=
  match h : skipBlanks cs with
  | [] => none
  | c :: rest =>
    have shorter : rest.length < cs.length := by
      have := length_skipBlanks_le cs
      rw [h, List.length_cons] at this
      omega
    if c = '[' ∧ 1 < depth then
      match items? (depth - 1) rest with
      | none => none
      | some ⟨xs, rest', h'⟩ => some ⟨array xs, rest', by omega⟩
    else if c = '\x7b' ∧ 1 < depth then
      match fields? (depth - 1) rest with
      | none => none
      | some ⟨xs, rest', h'⟩ => some ⟨object (Fields.ofPairs xs), rest', by omega⟩
    else if c = '"' then
      match string? rest with
      | none => none
      | some ⟨s, rest', h'⟩ => some ⟨str (String.ofList s), rest', by omega⟩
    else if c = '-' then
      match number? true rest with
      | none => none
      | some ⟨j, rest', h'⟩ => some ⟨j, rest', by omega⟩
    else
      let found := number? false (c :: rest) <|> word? ['n', 'u', 'l', 'l'] null (c :: rest) <|>
        word? ['t', 'r', 'u', 'e'] (bool true) (c :: rest) <|>
        word? ['f', 'a', 'l', 's', 'e'] (bool false) (c :: rest)
      match found with
      | none => none
      | some ⟨j, rest', h'⟩ => some ⟨j, rest', by simp only [List.length_cons] at h'; omega⟩
termination_by cs.length * 4 + 1

/-- The items of an array after its opening bracket. -/
def items? (depth : Nat) (cs : List Char) : Option (Read (List Json) cs.length) :=
  match h : skipBlanks cs with
  | ']' :: rest => some ⟨[], rest, by
      have := length_skipBlanks_le cs
      rw [h, List.length_cons] at this
      omega⟩
  | _ => moreItems? depth cs
termination_by cs.length * 4 + 3

/-- One or more items and the closing bracket. -/
def moreItems? (depth : Nat) (cs : List Char) : Option (Read (List Json) cs.length) :=
  match value? depth cs with
  | none => none
  | some ⟨x, rest, h⟩ =>
    match h' : skipBlanks rest with
    | ']' :: rest' => some ⟨[x], rest', by
        have := length_skipBlanks_le rest
        rw [h', List.length_cons] at this
        omega⟩
    | ',' :: rest' =>
      have shorter : rest'.length < rest.length := by
        have := length_skipBlanks_le rest
        rw [h', List.length_cons] at this
        omega
      match moreItems? depth rest' with
      | none => none
      | some ⟨xs, rest'', h''⟩ => some ⟨x :: xs, rest'', by omega⟩
    | _ => none
termination_by cs.length * 4 + 2

/-- The fields of an object after its opening brace. -/
def fields? (depth : Nat) (cs : List Char) : Option (Read (List (String × Json)) cs.length) :=
  match h : skipBlanks cs with
  | '\x7d' :: rest => some ⟨[], rest, by
      have := length_skipBlanks_le cs
      rw [h, List.length_cons] at this
      omega⟩
  | _ => moreFields? depth cs
termination_by cs.length * 4 + 3

/-- One or more fields and the closing brace. -/
def moreFields? (depth : Nat) (cs : List Char) :
    Option (Read (List (String × Json)) cs.length) :=
  match h₀ : skipBlanks cs with
  | '"' :: rest =>
    have shorter₀ : rest.length < cs.length := by
      have := length_skipBlanks_le cs
      rw [h₀, List.length_cons] at this
      omega
    match string? rest with
    | none => none
    | some ⟨name, rest₁, h₁⟩ =>
      match h₂ : skipBlanks rest₁ with
      | ':' :: rest₂ =>
        have shorter₂ : rest₂.length < rest₁.length := by
          have := length_skipBlanks_le rest₁
          rw [h₂, List.length_cons] at this
          omega
        match value? depth rest₂ with
        | none => none
        | some ⟨x, rest₃, h₃⟩ =>
          let field := (String.ofList name, x)
          match h₄ : skipBlanks rest₃ with
          | '\x7d' :: rest₄ => some ⟨[field], rest₄, by
              have := length_skipBlanks_le rest₃
              rw [h₄, List.length_cons] at this
              omega⟩
          | ',' :: rest₄ =>
            have shorter₄ : rest₄.length < rest₃.length := by
              have := length_skipBlanks_le rest₃
              rw [h₄, List.length_cons] at this
              omega
            match moreFields? depth rest₄ with
            | none => none
            | some ⟨fields, rest₅, h₅⟩ => some ⟨field :: fields, rest₅, by omega⟩
          | _ => none
      | _ => none
  | _ => none
termination_by cs.length * 4 + 2

end

/-- How deep containers may be nested, and one more. -/
def depthLimit : Nat := 128

def read? (text : String) : Option Json :=
  match value? depthLimit text.toList with
  | none => none
  | some ⟨j, rest, _⟩ => if (skipBlanks rest).isEmpty then some j else none

end TemplateExpr.Json
