import TemplateExpr.Number.Decimal

/-!
# Written forms of binary64 numbers

The digits of a number are the fewest that read back as it. A `Layout` says how they are written:
where an exponent is used, whether a whole number keeps a fraction, and how the special values are
spelled.

* `Layout.write`    the text of a number;
* `writeExpanded`   a whole number with all its digits and a zero fraction.
-/

namespace TemplateExpr

structure Layout where
  /-- Which of two equally near decimals is written. -/
  tie : Decimal.Tie
  /-- The powers of ten of the first digit for which no exponent is written. -/
  positional : Int → Bool
  /-- A whole number written without an exponent ends in `.0`. -/
  keepFraction : Bool
  /-- A positive exponent has a sign. -/
  signExponent : Bool
  nan : String
  infinity : String

namespace Layout

/-- The digits of `c * 10 ^ p` with a point where needed, and no exponent. -/
def plainDigits (keepFraction : Bool) (d : Decimal) : List Char :=
  let digits := Nat.toDigits 10 d.coefficient
  match d.exponent with
  | .ofNat k =>
    digits ++ List.replicate (if d.coefficient = 0 then 0 else k) '0' ++
      (if keepFraction then ['.', '0'] else [])
  | .negSucc k =>
    let padded := List.replicate (k + 2 - digits.length) '0' ++ digits
    padded.take (padded.length - (k + 1)) ++ '.' :: padded.drop (padded.length - (k + 1))

/-- One digit, a point before further ones, and the power of ten of the first digit. -/
def exponentDigits (signExponent : Bool) (d : Decimal) (place : Int) : List Char :=
  let digits := Nat.toDigits 10 d.coefficient
  let mantissa := match digits with
    | [] => []
    | [c] => [c]
    | c :: rest => c :: '.' :: rest
  let sign := if place < 0 then ['-'] else if signExponent then ['+'] else []
  mantissa ++ 'e' :: sign ++ Nat.toDigits 10 place.natAbs

/-- A finite magnitude. -/
def magnitude (layout : Layout) (m : Nat) (e : Int) : List Char :=
  if m = 0 then plainDigits layout.keepFraction ⟨0, 0⟩
  else
    let d := Decimal.shortest layout.tie m e
    let place := (Decimal.digitCount d.coefficient : Int) - 1 + d.exponent
    if layout.positional place then plainDigits layout.keepFraction d
    else exponentDigits layout.signExponent d place

def write (layout : Layout) (x : Float) : String :=
  match Binary64.decode x with
  | .nan => layout.nan
  | .infinite negative => if negative then "-" ++ layout.infinity else layout.infinity
  | .finite negative m e =>
    String.ofList ((if negative then ['-'] else []) ++ layout.magnitude m e)

/-- A number as part of a text: never an exponent, no fraction for a whole number. -/
def text : Layout where
  tie := .up
  positional := fun _ => true
  keepFraction := false
  signExponent := false
  nan := "NaN"
  infinity := "Infinity"

/-- A number in a description: from a ten-thousandth up to `10 ^ 16` without an exponent. -/
def outline : Layout where
  tie := .up
  positional := fun place => -5 < place && place < 16
  keepFraction := true
  signExponent := false
  nan := "NaN"
  infinity := "inf"

/-- A number in a JSON document, where the special values cannot occur. -/
def json : Layout where
  tie := .toEven
  positional := fun place => -6 < place && place < 16
  keepFraction := true
  signExponent := true
  nan := "null"
  infinity := "null"

end Layout

/-- A whole number with all its digits and a zero fraction, so that it reads as a float. -/
def writeExpanded (x : Float) : Option String :=
  match Binary64.decode x with
  | .finite negative m e =>
    let (n, d) := Binary64.scaled m e
    if n % d = 0 then
      some (String.ofList ((if negative then ['-'] else []) ++
        Layout.plainDigits true ⟨n / d, 0⟩))
    else none
  | _ => none

end TemplateExpr
