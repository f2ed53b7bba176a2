import TemplateExpr.Number.FixedPoint

/-!
# Arithmetic on integers and floats

Integers and floats are kept apart. An operation on two integers is exact and stays an integer as
long as its result has 64 bits; on two floats it is the binary64 operation; on one of each it goes
through fixed-point decimals and falls back on floats where those do not fit.

* `Number.narrow?`   an integer as a 64-bit one;
* `Number.integerResult?`    the exact integer result of an operation;
* `Number.apply`     an operation on two numbers;
* `Number.compare?`  their order, which a NaN does not have.
-/

namespace TemplateExpr

-- Powers are those of core, also where another power of naturals is in scope.
attribute [local instance (high)] instPowNat

inductive ArithOp where
  | add
  | subtract
  | multiply
  | divide
  | floorDivide
  | modulo
deriving DecidableEq, Repr

inductive Number where
  | int (n : Int64)
  | float (x : Float)
deriving Repr

namespace Number

def toFloat : Number → Float
  | int n => Binary64.ofInt64 n
  | float x => x

def narrow? (n : Int) : Option Int64 :=
  if Int64.minValue.toInt ≤ n ∧ n ≤ Int64.maxValue.toInt then some (Int64.ofInt n) else none

/-- The exact result of an operation on integers, where there is one. A remainder is taken only
where the quotient toward zero has 64 bits. -/
def integerResult? (op : ArithOp) (a b : Int) : Option Int :=
  match op with
  | .add => some (a + b)
  | .subtract => some (a - b)
  | .multiply => some (a * b)
  | .divide => if b ≠ 0 ∧ a % b = 0 then some (a / b) else none
  | .floorDivide => if b ≠ 0 then some (a.fdiv b) else none
  | .modulo => if b ≠ 0 ∧ (narrow? (a.tdiv b)).isSome then some (a.tmod b) else none

/-- The floor of a float as an integer if it lies strictly between `±2 ^ 63`, else the float,
which has no fraction then. -/
def floor (x : Float) : Number :=
  match Binary64.floor? x with
  | some n => if n.natAbs < 2 ^ (63 : Nat) then int (Int64.ofInt n) else float x
  | none => float x

def applyFloats (op : ArithOp) (x y : Float) : Number :=
  match op with
  | .add => float (x + y)
  | .subtract => float (x - y)
  | .multiply => float (x * y)
  | .divide => float (x / y)
  | .floorDivide => floor (x / y)
  | .modulo => float (Binary64.remainder x y)

def applyInts (op : ArithOp) (a b : Int64) : Number :=
  match (integerResult? op a.toInt b.toInt).bind narrow? with
  | some n => int n
  | none => applyFloats op (Binary64.ofInt64 a) (Binary64.ofInt64 b)

/-- The number that a fixed-point decimal is: an integer if it is whole and has 64 bits. -/
def ofFixedPoint (x : FixedPoint) : Number :=
  match x.whole?.bind narrow? with
  | some n => int n
  | none => float x.toFloat

def applyFixed? (op : ArithOp) (x y : FixedPoint) : Option Number :=
  (match op with
    | .add => x.add? y
    | .subtract => x.sub? y
    | .multiply => x.mul? y
    | .divide => x.div? y
    | .floorDivide => (x.div? y).map FixedPoint.floor
    | .modulo => x.rem? y).map ofFixedPoint

def apply (op : ArithOp) : Number → Number → Number
  | int a, int b => applyInts op a b
  | float x, float y => applyFloats op x y
  | int a, float y =>
    ((FixedPoint.ofFloat? y).bind (applyFixed? op (FixedPoint.ofInt a.toInt))).getD
      (applyFloats op (Binary64.ofInt64 a) y)
  | float x, int b =>
    ((FixedPoint.ofFloat? x).bind (applyFixed? op · (FixedPoint.ofInt b.toInt))).getD
      (applyFloats op x (Binary64.ofInt64 b))

/-- The order of two floats. -/
def compareFloats? (x y : Float) : Option Ordering :=
  if x < y then some .lt
  else if y < x then some .gt
  else if x == y then some .eq
  else none

def compare? (a b : Number) : Option Ordering := compareFloats? a.toFloat b.toFloat

end Number

end TemplateExpr
