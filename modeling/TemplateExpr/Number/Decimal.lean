import TemplateExpr.Number.Binary64

/-!
# Decimal fractions

A decimal fraction is a coefficient times a power of ten.

* `Decimal.toFloat`   the binary64 number nearest to it;
* `Decimal.exact`     the decimal fraction that a binary64 magnitude is;
* `Decimal.shortest`  the fewest digits that read back as a magnitude, and of those the nearest.
-/

namespace TemplateExpr

-- Powers are those of core, also where another power of naturals is in scope.
attribute [local instance (high)] instPowNat

/-- The number `coefficient * 10 ^ exponent`. -/
structure Decimal where
  coefficient : Nat
  exponent : Int
deriving DecidableEq, Repr

namespace Decimal

def digitCount (n : Nat) : Nat := (Nat.toDigits 10 n).length

/-- The decimal as a fraction. -/
def ratio (d : Decimal) : Nat × Nat :=
  match d.exponent with
  | .ofNat k => (d.coefficient * 10 ^ k, 1)
  | .negSucc k => (d.coefficient, 10 ^ (k + 1))

/-- Powers of ten from which every positive decimal overflows, whatever its digits are. -/
def overflowPlace : Int := 400

/-- Powers of ten below which every decimal rounds to zero. -/
def underflowPlace : Int := -400

/-- The number nearest to the decimal. Decimals far outside the range are answered by their
size alone, so that no huge power of ten is computed. -/
def toFloat (negative : Bool) (d : Decimal) : Float :=
  let place := (digitCount d.coefficient : Int) + d.exponent
  if d.coefficient = 0 ∨ place < underflowPlace then Binary64.zero negative
  else if overflowPlace < place then Binary64.infinity negative
  else Binary64.ofRatio negative d.ratio.1 d.ratio.2

/-- Drops zeros at the end of the coefficient, at most `count` of them. -/
def dropZeros : Nat → Decimal → Decimal
  | 0, d => d
  | count + 1, d =>
    if d.coefficient ≠ 0 ∧ d.coefficient % 10 = 0 then
      dropZeros count ⟨d.coefficient / 10, d.exponent + 1⟩
    else d

/-- The same number without zeros at the end of its coefficient. -/
def normal (d : Decimal) : Decimal :=
  dropZeros (digitCount d.coefficient) d

/-- The decimal that `m * 2 ^ e` is: a negative power of two is a power of five over ten. -/
def exact (m : Nat) : Int → Decimal
  | .ofNat k => ⟨m * 2 ^ k, 0⟩
  | .negSucc k => ⟨m * 5 ^ (k + 1), .negSucc k⟩

/-- The power of ten of the first digit of the fraction `n / d`. -/
def leadingPlace (n d : Nat) : Int :=
  if d ≤ n then (digitCount (n / d) : Int) - 1
  else
    let t := digitCount (d / n)
    if d ≤ n * 10 ^ (t - 1) then 1 - (t : Int) else -(t : Int)

/-- Where a decimal half way between two others goes. -/
inductive Tie where
  | up
  | toEven
deriving DecidableEq, Repr

/-- Of the integers `c` and `c + 1` around the fraction `n / d`, whether the upper one is nearer. -/
def upperNearer (tie : Tie) (c n d : Nat) : Bool :=
  let twice := 2 * n
  let middle := (2 * c + 1) * d
  if twice < middle then false
  else if middle < twice then true
  else
    match tie with
    | .up => true
    | .toEven => c % 2 = 1

/-- The decimal of `count` digits that reads back as the magnitude `m * 2 ^ e`, the nearer one if
both neighbours on that grid do. -/
def withDigits? (tie : Tie) (m : Nat) (e : Int) (count : Nat) : Option Decimal :=
  let (n, d) := Binary64.scaled m e
  let place := leadingPlace n d - ((count : Int) - 1)
  let (n, d) : Nat × Nat := match place with
    | .ofNat k => (n, d * 10 ^ k)
    | .negSucc k => (n * 10 ^ (k + 1), d)
  let c := n / d
  let below : Decimal := ⟨c, place⟩
  let above : Decimal := ⟨c + 1, place⟩
  let value := (exact m e).toFloat false
  let fits (x : Decimal) : Bool := (x.toFloat false).toBits == value.toBits
  match fits below, fits above with
  | true, true => some (if upperNearer tie c n d then above else below)
  | true, false => some below
  | false, true => some above
  | false, false => none

/-- The fewest digits that read back as the magnitude `m * 2 ^ e`; seventeen always suffice. -/
def shortest (tie : Tie) (m : Nat) (e : Int) : Decimal :=
  (((List.range' 1 17).findSome? (withDigits? tie m e)).getD (exact m e)).normal

end Decimal

end TemplateExpr
