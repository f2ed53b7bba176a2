import TemplateExpr.Number.Decimal

/-!
# Reading numbers

* `Decimal.read?`  digits with an optional fraction and exponent;
* `readFloat?`     an optional sign before such a number, `inf`, `infinity` or `nan` in any case.
-/

namespace TemplateExpr

namespace Decimal

/-- An exponent without its mark: an optional sign and at least one digit. -/
def readExponent? (cs : List Char) : Option Int :=
  let (negative, digits) := match cs with
    | '+' :: rest => (false, rest)
    | '-' :: rest => (true, rest)
    | _ => (false, cs)
  if digits.isEmpty || !digits.all Char.isDigit then none
  else
    let n : Int := Nat.ofDigitChars 10 digits 0
    some (if negative then -n else n)

/-- Digits, a point and digits, then an exponent; the fraction, the exponent and one of the two
digit runs may be missing. -/
def read? (cs : List Char) : Option Decimal :=
  let whole := cs.takeWhile Char.isDigit
  let rest := cs.dropWhile Char.isDigit
  let (fraction, rest) := match rest with
    | '.' :: tail => (tail.takeWhile Char.isDigit, tail.dropWhile Char.isDigit)
    | _ => ([], rest)
  if whole.isEmpty && fraction.isEmpty then none
  else
    let coefficient := Nat.ofDigitChars 10 (whole ++ fraction) 0
    match rest with
    | [] => some ⟨coefficient, -fraction.length⟩
    | c :: tail =>
      if c = 'e' ∨ c = 'E' then
        (readExponent? tail).map fun e => ⟨coefficient, e - fraction.length⟩
      else none

end Decimal

/-- The binary64 number nearest to the number that the text spells. -/
def readFloat? (cs : List Char) : Option Float :=
  let (negative, digits) := match cs with
    | '+' :: rest => (false, rest)
    | '-' :: rest => (true, rest)
    | _ => (false, cs)
  let word := digits.map Char.toLower
  if word = ['i', 'n', 'f'] ∨ word = ['i', 'n', 'f', 'i', 'n', 'i', 't', 'y'] then
    some (Binary64.infinity negative)
  else if word = ['n', 'a', 'n'] then some Binary64.nan
  else (Decimal.read? digits).map (Decimal.toFloat negative)

end TemplateExpr
