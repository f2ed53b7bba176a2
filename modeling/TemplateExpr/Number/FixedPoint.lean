import TemplateExpr.Number.Binary64

/-!
# Fixed-point decimals

A fixed-point decimal is a sign, a magnitude below `2 ^ 96` and a scale of at most 28 places.
Arithmetic that mixes an integer with a float goes through these, so that `0.1 * 3` is `0.3`. An
operation whose result does not fit has no answer.

* `ofInt`, `ofFloat?`   the decimal of an integer, and the one near a float;
* `add?`, `sub?`, `mul?`, `div?`, `rem?`, `floor`   the arithmetic;
* `whole?`, `toFloat`   the integer that a decimal is, and the float near it.
-/

namespace TemplateExpr

-- Powers are those of core, also where another power of naturals is in scope.
attribute [local instance (high)] instPowNat

/-- The number `± magnitude / 10 ^ scale`. -/
structure FixedPoint where
  negative : Bool
  magnitude : Nat
  scale : Nat
deriving DecidableEq, Repr

namespace FixedPoint

/-- The greatest magnitude. -/
def limit : Nat := 2 ^ (96 : Nat) - 1

/-- The greatest number of places. -/
def maxScale : Nat := 28

def zero : FixedPoint := ⟨false, 0, 0⟩

def ofInt (n : Int) : FixedPoint := ⟨n < 0, n.natAbs, 0⟩

/-! ## from binary64

While a float is converted, it is `m * 10 ^ tens` times a power of five that is taken up step by
step. -/

/-- Multiplies by `5 ^ count`, or halves and adds a ten where that is exact or does not fit. -/
def takeFives : Nat → Nat → Int → Nat × Int
  | 0, m, tens => (m, tens)
  | count + 1, m, tens =>
    if m % 2 = 0 ∨ limit < 5 * m then takeFives count (m / 2) (tens + 1)
    else takeFives count (5 * m) tens

/-- Divides by `5 ^ count`, doubling and taking away a ten as long as the result fits. -/
def dropFives : Nat → Nat → Int → Option (Nat × Int)
  | 0, m, tens => some (m, tens)
  | count + 1, m, tens =>
    if m < 2 ^ (95 : Nat) then dropFives count (2 * m) (tens - 1)
    else if (count : Int) + 1 < 2 * tens then none
    else dropFives count (m / 5) tens

/-- Multiplies by `10 ^ count`. -/
def raise : Nat → Nat → Option Nat
  | 0, m => some m
  | count + 1, m => if 10 * m ≤ limit then raise count (10 * m) else none

/-- Drops one digit, rounding a half up. -/
def dropDigit (m : Nat) : Nat := if 5 ≤ m % 10 then m / 10 + 1 else m / 10

/-- Drops `count` digits; a number without digits left is zero. -/
def dropPlaces : Nat → Nat → Int → Nat × Int
  | 0, m, tens => (m, tens)
  | count + 1, m, tens =>
    if m / 10 = 0 then (0, 0) else dropPlaces count (dropDigit m) (tens + 1)

/-- Drops at most `count` digits while the magnitude has more than a float's precision. -/
def dropExcess : Nat → Nat → Int → Nat × Int
  | 0, m, tens => (m, tens)
  | count + 1, m, tens =>
    if 2 ^ (52 : Nat) ≤ m then dropExcess count (dropDigit m) (tens + 1) else (m, tens)

/-- Drops at most `count` zeros. -/
def dropZeros : Nat → Nat → Int → Nat × Int
  | 0, m, tens => (m, tens)
  | count + 1, m, tens =>
    if m % 10 = 0 then dropZeros count (m / 10) (tens + 1) else (m, tens)

/-- `m * 10 ^ tens` with as many digits as a float can tell apart. -/
def ofTens? (negative : Bool) (m : Nat) (tens : Int) : Option FixedPoint :=
  if 0 < tens then (raise tens.toNat m).map fun m => ⟨negative, m, 0⟩
  else
    let (m, tens) := dropPlaces (-28 - tens).toNat m tens
    let (m, tens) := dropExcess (-tens).toNat m tens
    let (m, tens) := dropZeros (-tens).toNat m tens
    some ⟨negative, m, (-tens).toNat⟩

/-- The decimal of a finite float. -/
def ofFloat? (x : Float) : Option FixedPoint :=
  match Binary64.decode x with
  | .finite negative m e =>
    if m = 0 then some ⟨negative, 0, 0⟩
    else
      match e with
      | .ofNat k => (dropFives k m k).bind fun (m, tens) => ofTens? negative m tens
      | .negSucc k =>
        let (m, tens) := takeFives (k + 1) m (.negSucc k)
        ofTens? negative m tens
  | _ => none

/-! ## sums and products -/

/-- The least number of digits, from `drop` on, whose loss lets the magnitude fit. -/
def fittingDrop (m : Nat) : Nat → Nat → Nat
  | 0, drop => drop
  | fuel + 1, drop => if limit < m / 10 ^ drop then fittingDrop m fuel (drop + 1) else drop

/-- A result that may be too long, rounded half to even until it fits. -/
def fit? (negative : Bool) (m scale : Nat) : Option FixedPoint :=
  let drop := fittingDrop m m.log2 (scale - maxScale)
  let rounded := nearestQuotient m (10 ^ drop)
  let (drop, rounded) :=
    if limit < rounded then (drop + 1, nearestQuotient rounded 10) else (drop, rounded)
  if scale < drop then none else some ⟨negative && rounded != 0, rounded, scale - drop⟩

def isZero (x : FixedPoint) : Bool := x.magnitude == 0

def neg (x : FixedPoint) : FixedPoint := { x with negative := !x.negative && !x.isZero }

/-- The numerator over `10 ^ scale`, for a scale that is not smaller than the decimal's. -/
def numerator (x : FixedPoint) (scale : Nat) : Int :=
  let n : Int := (x.magnitude * 10 ^ (scale - x.scale) : Nat)
  if x.negative then -n else n

def add? (x y : FixedPoint) : Option FixedPoint :=
  if x.isZero then some y
  else if y.isZero then some x
  else
    let scale := max x.scale y.scale
    let sum := x.numerator scale + y.numerator scale
    fit? (sum < 0) sum.natAbs scale

def sub? (x y : FixedPoint) : Option FixedPoint := x.add? y.neg

def mul? (x y : FixedPoint) : Option FixedPoint :=
  if x.isZero || y.isZero then some zero
  else fit? (x.negative != y.negative) (x.magnitude * y.magnitude) (x.scale + y.scale)

/-! ## quotients

A quotient is computed a few digits at a time. At each point `q` over `10 ^ scale` is what has
been found and `r` the rest of the division by `divisor`; the scale is negative as long as the
divisor has more places than the digits found. -/

/-- The most digits, up to `bound`, that can be added to `q`. -/
def roomFor (q : Nat) : Nat → Nat
  | 0 => 0
  | bound + 1 => if q * 10 ^ (bound + 1) ≤ limit then bound + 1 else roomFor q bound

theorem roomFor_le (q bound : Nat) : roomFor q bound ≤ bound := by
  induction bound with
  | zero => simp [roomFor]
  | succ n ih => rw [roomFor]; split <;> omega

/-- What a quotient ends as: its digits and scale, and whether the division went past the
point. -/
structure Quotient where
  digits : Nat
  scale : Int
  fractional : Bool

/-- Ends a quotient with the rest `r`, rounding half to even. -/
def Quotient.round (q r divisor : Nat) (scale : Int) : Quotient :=
  let q := if divisor < 2 * r ∨ (2 * r = divisor ∧ q % 2 = 1) then q + 1 else q
  if limit < q then ⟨nearestQuotient q 10, scale - 1, true⟩ else ⟨q, scale, true⟩

/-- Ends a quotient that has one digit too many. -/
def Quotient.shorten (q r : Nat) (scale : Int) (fractional : Bool) : Option Quotient :=
  if scale < 1 then none
  else
    let digit := q % 10
    let up := 5 < digit ∨ (digit = 5 ∧ (r ≠ 0 ∨ q / 10 % 2 = 1))
    some ⟨if up then q / 10 + 1 else q / 10, scale - 1, fractional⟩

/-- Adds digits to a quotient until the rest is zero or there is no more room. -/
def quotient? (divisor q r : Nat) (scale : Int) (fractional : Bool) : Option Quotient :=
  let places := if r = 0 then min 9 (-scale).toNat else roomFor q (min 9 (maxScale - scale).toNat)
  if r = 0 ∧ 0 ≤ scale then some ⟨q, scale, fractional⟩
  else if r ≠ 0 ∧ places < 9 ∧ places + scale < 0 then none
  else if places = 0 then some (Quotient.round q r divisor scale)
  else
    let fractional := fractional || r != 0
    let raised := q * 10 ^ places
    let more := r * 10 ^ places
    let q' := raised + more / divisor
    if limit < raised then none
    else if limit < q' then Quotient.shorten q' (more % divisor) (scale + places) fractional
    else quotient? divisor q' (more % divisor) (scale + places) fractional
termination_by (maxScale - scale).toNat
decreasing_by
  have room := roomFor_le q (min 9 (maxScale - scale).toNat)
  have placed : places ≤ (maxScale - scale).toNat := by
    simp only [places, maxScale] at *
    by_cases h : r = 0 <;> simp only [h, dite_true, dite_false] <;> omega
  omega

/-- Drops `count` zeros from the end of digits that `2 ^ twos` divides. -/
def Quotient.dropZeros (x : Quotient) (twos count : Nat) : Quotient :=
  if x.digits % 2 ^ twos = 0 ∧ count ≤ x.scale ∧ x.digits % 10 ^ count = 0 then
    { x with digits := x.digits / 10 ^ count, scale := x.scale - count }
  else x

/-- A quotient that went past the point loses the zeros at its end, in groups of eight as long as
its low word is zero, then of four, two and one. -/
def Quotient.trim (x : Quotient) : Quotient :=
  if x.fractional then
    [(32, 8), (32, 8), (32, 8), (4, 4), (2, 2), (1, 1)].foldl
      (fun x (twos, count) => x.dropZeros twos count) x
  else x

def div? (x y : FixedPoint) : Option FixedPoint :=
  if y.isZero then none
  else if x.isZero then some zero
  else
    let m := x.magnitude
    let divisor := y.magnitude
    (quotient? divisor (m / divisor) (m % divisor) ((x.scale : Int) - y.scale) false).map
      fun result =>
        let result := result.trim
        ⟨(x.negative != y.negative) && result.digits != 0, result.digits, result.scale.toNat⟩

def rem? (x y : FixedPoint) : Option FixedPoint :=
  if y.isZero then none
  else if x.isZero then some zero
  else
    let scale := max x.scale y.scale
    let m := (x.numerator scale).natAbs
    let n := (y.numerator scale).natAbs
    if m = n then some zero
    else if m < n then some x
    else some ⟨x.negative, m % n, scale⟩

/-! ## whole numbers and floats -/

/-- The greatest whole decimal that is not above the decimal. -/
def floor (x : FixedPoint) : FixedPoint :=
  let q := x.magnitude / 10 ^ x.scale
  let inexact := x.magnitude % 10 ^ x.scale != 0
  ⟨x.negative, if x.negative && inexact then q + 1 else q, 0⟩

/-- The integer that the decimal is. -/
def whole? (x : FixedPoint) : Option Int :=
  if x.magnitude % 10 ^ x.scale = 0 then
    let n : Int := (x.magnitude / 10 ^ x.scale : Nat)
    some (if x.negative then -n else n)
  else none

/-- `10 ^ n` in floats, by squaring. -/
def powerOfTen (n : Nat) : Float :=
  go n 1 10
where
  go (n : Nat) (result base : Float) : Float :=
    let result := if n % 2 = 1 then result * base else result
    if n / 2 = 0 then result else go (n / 2) result (base * base)
  termination_by n
  decreasing_by omega

/-- The float that the whole part and the fraction add up to, rounded at the decimal's scale. -/
def toFloat (x : FixedPoint) : Float :=
  let q := Binary64.ofNat (x.magnitude / 10 ^ x.scale)
  let fraction :=
    Binary64.ofNat (x.magnitude % 10 ^ x.scale) / Binary64.ofNat (10 ^ x.scale)
  let power := powerOfTen x.scale
  let magnitude :=
    if x.scale = 0 ∨ fraction == 0 then q
    else Binary64.roundAway ((q + fraction) * power) / power
  if x.negative then -magnitude else magnitude

end FixedPoint

end TemplateExpr
