/-!
# Binary64 numbers as exact fractions

A finite binary64 number is a sign, a mantissa and a power of two. Everything that has to be exact
is computed on these.

* `decode`     what a number stands for;
* `ofRatio`    the number nearest to a fraction, a tie going to the even mantissa;
* `ofNat`, `ofInt64`   the number nearest to an integer;
* `floor?`, `whole?`   the integer below a finite number, and the integer it is;
* `remainder`  the remainder of truncated division;
* `roundAway`  the nearest integer, a half going away from zero.
-/

namespace TemplateExpr

-- Powers are those of core, also where another power of naturals is in scope.
attribute [local instance (high)] instPowNat

/-- The integer nearest to `n / d`, a half going to the even one. -/
def nearestQuotient (n d : Nat) : Nat :=
  let q := n / d
  let r := n % d
  if 2 * r < d then q
  else if d < 2 * r then q + 1
  else q + q % 2

namespace Binary64

inductive Decoded where
  | nan
  | infinite (negative : Bool)
  /-- The number `± mantissa * 2 ^ exponent`. -/
  | finite (negative : Bool) (mantissa : Nat) (exponent : Int)
deriving DecidableEq, Repr

def decode (x : Float) : Decoded :=
  let bits : Nat := x.toBits.toNat
  let negative := decide (2 ^ (63 : Nat) ≤ bits)
  let biased : Nat := bits / 2 ^ (52 : Nat) % 2 ^ (11 : Nat)
  let fraction : Nat := bits % 2 ^ (52 : Nat)
  if biased = 2047 then
    if fraction = 0 then .infinite negative else .nan
  else if biased = 0 then .finite negative fraction (-1074)
  else .finite negative (2 ^ (52 : Nat) + fraction) ((biased : Int) - 1075)

/-- The bits of infinity without its sign: those of all finite magnitudes are below. -/
def infinityBits : Nat := 2047 * 2 ^ (52 : Nat)

/-- The number with the given sign and the given bits below the sign. -/
def withSign (negative : Bool) (bits : Nat) : Float :=
  Float.ofBits (UInt64.ofNat (if negative then 2 ^ (63 : Nat) + bits else bits))

def nan : Float := Float.ofBits 0x7ff8000000000000

def infinity (negative : Bool) : Float := withSign negative infinityBits

def zero (negative : Bool) : Float := withSign negative 0

/-- `m * 2 ^ e` as a fraction. -/
def scaled (m : Nat) : Int → Nat × Nat
  | .ofNat k => (m * 2 ^ k, 1)
  | .negSucc k => (m, 2 ^ (k + 1))

/-- The least exponent at which `n / d` has a mantissa below `2 ^ 53`. -/
def fittingExponent (n d : Nat) : Int :=
  let low : Int := max (-1074) ((n.log2 : Int) - d.log2 - 53)
  let (a, b) := scaled d low
  if 2 ^ (53 : Nat) * a ≤ n * b then low + 1 else low

/-- The bits of the magnitude nearest to `n / d`. A mantissa that rounds up to `2 ^ 53` carries
into the exponent, and past the largest finite number lies infinity. -/
def magnitudeBits (n d : Nat) : Nat :=
  let e := fittingExponent n d
  let (a, b) := scaled d e
  min ((e + 1074).toNat * 2 ^ (52 : Nat) + nearestQuotient (n * b) a) infinityBits

/-- The number nearest to `± n / d`. -/
def ofRatio (negative : Bool) (n d : Nat) : Float :=
  if n = 0 then zero negative else withSign negative (magnitudeBits n d)

def ofNat (n : Nat) : Float := ofRatio false n 1

def ofInt64 (n : Int64) : Float := ofRatio (decide (n.toInt < 0)) n.toInt.natAbs 1

/-- The greatest integer that is not above the number. -/
def floor? (x : Float) : Option Int :=
  match decode x with
  | .finite negative m e =>
    let (n, d) := scaled m e
    some ((if negative then -(n : Int) else n) / d)
  | _ => none

/-- The integer that the number is. -/
def whole? (x : Float) : Option Int :=
  match decode x with
  | .finite negative m e =>
    let (n, d) := scaled m e
    if n % d = 0 then some (if negative then -((n / d : Nat) : Int) else (n / d : Nat)) else none
  | _ => none

/-- The remainder of dividing toward zero, with the sign of the dividend. -/
def remainder (x y : Float) : Float :=
  match decode x, decode y with
  | .finite negative m e, .finite _ m' e' =>
    if m' = 0 then nan
    else
      let least := min e e'
      let r := m * 2 ^ (e - least).toNat % (m' * 2 ^ (e' - least).toNat)
      let (n, d) := scaled r least
      ofRatio negative n d
  | .finite .., .infinite _ => x
  | _, _ => nan

/-- The integer nearest to a number, a half going away from zero. -/
def roundAway (x : Float) : Float :=
  match decode x with
  | .finite negative m e =>
    let (n, d) := scaled m e
    ofRatio negative ((2 * n + d) / (2 * d)) 1
  | _ => x

end Binary64

end TemplateExpr
