import TemplateExpr.Fields
import TemplateExpr.Number.Arithmetic

/-!
# Values

Scalars are plain data. Arrays and objects are references into a heap, so a write through one
reference is seen through every other. Functions and host objects belong to the embedding program
and are known here by their number. An overlay is a scope with locals in front of it.

* `Value.isTruthy`                    which values count as true;
* `Value.asInt?`, `Value.asFloat?`    the numeric readings;
* `Value.same`                        identity: references by identity, scalars by content;
* `Value.strictEquals`                identity that also compares integers with floats.
-/

namespace TemplateExpr

inductive Value where
  | null
  | bool (b : Bool)
  | int (n : Int64)
  | float (x : Float)
  | str (s : String)
  | array (ref : Nat)
  | object (ref : Nat)
  | function (id : Nat)
  | host (id : Nat)
  /-- Names are looked up among the locals before the scope. -/
  | overlay (id : Nat) (scope locals : Value)
deriving Inhabited

namespace Value

/-- The kinds of values that messages tell apart. -/
inductive Kind where
  | null
  | boolean
  | integer
  | float
  | string
  | array
  | object
  | function
  | hostObject
deriving DecidableEq, Repr

def Kind.name : Kind → String
  | null => "null"
  | boolean => "boolean"
  | integer => "integer"
  | float => "float"
  | string => "string"
  | array => "array"
  | object => "object"
  | function => "function"
  | hostObject => "host object"

def kind : Value → Kind
  | null => .null
  | bool _ => .boolean
  | int _ => .integer
  | float _ => .float
  | str _ => .string
  | array _ => .array
  | object _ => .object
  | function _ => .function
  | host _ => .hostObject
  | overlay .. => .hostObject

def ofNumber : Number → Value
  | .int n => int n
  | .float x => float x

def ofNat (n : Nat) : Value := int (Int64.ofNat n)

def isNull : Value → Bool
  | null => true
  | _ => false

def isTruthy : Value → Bool
  | null => false
  | bool b => b
  | int n => n != 0
  | float x => !(x == 0) && !x.isNaN
  | str s => !s.isEmpty
  | _ => true

def asFloat? : Value → Option Float
  | int n => some (Binary64.ofInt64 n)
  | float x => some x
  | _ => none

/-- The integer that a number is, if it has 64 bits. -/
def asInt? : Value → Option Int64
  | int n => some n
  | float x => (Binary64.whole? x).bind Number.narrow?
  | _ => none

/-- The place in a sequence that a number names. -/
def asIndex? (v : Value) : Option Nat :=
  v.asInt?.bind fun n => if n < 0 then none else some n.toInt.toNat

def same : Value → Value → Bool
  | null, null => true
  | bool a, bool b => a == b
  | int a, int b => a == b
  | float x, float y => x == y
  | str s, str t => s == t
  | array r, array s => r == s
  | object r, object s => r == s
  | function f, function g => f == g
  | host h, host k => h == k
  | overlay i _ _, overlay j _ _ => i == j
  | _, _ => false

def strictEquals : Value → Value → Bool
  | int a, float y => Binary64.ofInt64 a == y
  | float x, int b => Binary64.ofInt64 b == x
  | v, w => same v w

end Value

end TemplateExpr
