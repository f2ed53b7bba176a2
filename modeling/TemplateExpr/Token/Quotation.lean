/-!
# Quotations

What stands between the quotes of a string literal. A backslash keeps the next character, names a
control character, or spells a character by four hexadecimal digits.

* `Quotation.scan`             reads up to the closing quote;
* `Quotation.size_le_length`   reading stays inside the text.
-/

namespace TemplateExpr

/-- The outcome of reading a quotation after its opening quote. -/
inductive Quotation where
  /-- The content, and how many characters spell it, with the closing quote. -/
  | closed (content : List Char) (size : Nat)
  /-- What stood in place of the four digits, and how many characters stand before the
  backslash. -/
  | badEscape (digits : List Char) (offset : Nat)
  | unclosed

namespace Quotation

def isHexDigit (c : Char) : Bool :=
  c.isDigit || ('a' ≤ c && c ≤ 'f') || ('A' ≤ c && c ≤ 'F')

def hexValue (c : Char) : Nat :=
  if c.isDigit then c.toNat - '0'.toNat
  else if 'a' ≤ c then c.toNat - 'a'.toNat + 10
  else c.toNat - 'A'.toNat + 10

/-- The character with the code that four hexadecimal digits spell. -/
def decodeHex? (digits : List Char) : Option Char :=
  if digits.length = 4 ∧ digits.all isHexDigit then
    let code := digits.foldl (fun n c => 16 * n + hexValue c) 0
    if code.isValidChar then some (Char.ofNat code) else none
  else none

/-- The character that a backslash makes of the one after it. -/
def unescape (c : Char) : Char :=
  if c = 'n' then '\n'
  else if c = 'f' then '\x0c'
  else if c = 'r' then '\r'
  else if c = 't' then '\t'
  else if c = 'v' then '\x0b'
  else c

/-- The outcome with a character in front that `size` characters spell. -/
def cons (c : Char) (size : Nat) : Quotation → Quotation
  | closed content n => closed (c :: content) (size + n)
  | badEscape digits offset => badEscape digits (size + offset)
  | unclosed => unclosed

def scan (quote : Char) (cs : List Char) : Quotation :=
  match cs with
  | [] => unclosed
  | c :: rest =>
    if c = quote then closed [] 1
    else if c = '\\' then
      match rest with
      | [] => unclosed
      | e :: tail =>
        if e = 'u' then
          match decodeHex? (tail.take 4) with
          | some decoded => cons decoded 6 (scan quote (tail.drop 4))
          | none => badEscape (tail.take 4) 0
        else cons (unescape e) 2 (scan quote tail)
    else cons c 1 (scan quote rest)
termination_by cs.length
decreasing_by all_goals simp; try omega

theorem length_of_decodeHex? {digits : List Char} {c : Char} (h : decodeHex? digits = some c) :
    digits.length = 4 := by
  unfold decodeHex? at h
  split at h
  · next hd => exact hd.1
  · simp at h

theorem cons_eq_closed {c : Char} {size n : Nat} {q : Quotation} {content : List Char}
    (h : cons c size q = closed content n) :
    ∃ inner m, q = closed inner m ∧ content = c :: inner ∧ n = size + m := by
  cases q with
  | closed inner m =>
    simp only [cons, closed.injEq] at h
    exact ⟨inner, m, rfl, h.1.symm, h.2.symm⟩
  | badEscape digits offset => simp [cons] at h
  | unclosed => simp [cons] at h

theorem size_le_length {quote : Char} {cs content : List Char} {size : Nat}
    (h : scan quote cs = closed content size) : size ≤ cs.length := by
  fun_induction scan quote cs generalizing content size with
  | case1 => simp at h
  | case2 rest =>
    simp only [closed.injEq] at h
    rw [← h.2, List.length_cons]; omega
  | case3 => simp at h
  | case4 tail decoded hd _ ih =>
    obtain ⟨inner, m, hq, _, rfl⟩ := cons_eq_closed h
    have h4 := length_of_decodeHex? hd
    have := ih hq
    simp only [List.length_drop, List.length_take, List.length_cons] at *
    omega
  | case5 => simp at h
  | case6 e tail _ _ ih =>
    obtain ⟨inner, m, hq, _, rfl⟩ := cons_eq_closed h
    have := ih hq
    simp only [List.length_cons]
    omega
  | case7 c rest _ _ ih =>
    obtain ⟨inner, m, hq, _, rfl⟩ := cons_eq_closed h
    have := ih hq
    simp only [List.length_cons]
    omega

end Quotation

end TemplateExpr
