import TemplateExpr.Access
import TemplateExpr.Number.Reading
import TemplateExpr.Text.Blank

/-!
# What the operators compute

Null is treated by each operator in its own way: sums and differences take a missing operand as
absent, the other arithmetic and the relations answer null, and equality compares it.

* `Value.add`, `Value.subtract`, `Value.arithmetic`   arithmetic on values;
* `Value.compare`        the relations;
* `Value.looseEquals`    equality across kinds of numbers and numeric texts;
* `BinOp.apply`          any operator on two values;
* `Value.select`         the chosen branch of a conditional.
-/

namespace TemplateExpr

namespace Value

/-- The number that arithmetic takes a value for. -/
def number? : Value → Option Number
  | int n => some (.int n)
  | float x => some (.float x)
  | bool b => some (.int (if b then 1 else 0))
  | _ => none

/-- The number that comparisons take a value for: a text counts if it spells one, and a blank one
is zero. -/
def looseNumber? : Value → Option Number
  | str s =>
    let trimmed := Text.trim s.toList
    if trimmed.isEmpty then some (.int 0) else (readFloat? trimmed).map .float
  | v => v.number?

/-- The value lives in the heap or in the embedding program, and is compared by identity. -/
def isShared : Value → Bool
  | array _ | object _ | function _ | host _ | overlay .. => true
  | _ => false

def arithmetic (op : ArithOp) (left right : Value) : Except EvalError Value :=
  match left.number?, right.number? with
  | some a, some b => .ok (ofNumber (Number.apply op a b))
  | _, _ => .error (.typeFault (.cannotOperate op left.kind right.kind))

/-- A text makes the other operand a text; null leaves the other operand as it is. -/
def add (h : Heap) : Value → Value → Except EvalError Value
  | null, null => .ok (int 0)
  | null, v => .ok v
  | v, null => .ok v
  | str s, v => .ok (str (s ++ h.text v))
  | v, str s => .ok (str (h.text v ++ s))
  | v, w => arithmetic .add v w

/-- Null on the left negates the right operand. -/
def subtract : Value → Value → Except EvalError Value
  | null, null => .ok (int 0)
  | null, v => arithmetic .subtract (int 0) v
  | v, null => .ok v
  | v, w => arithmetic .subtract v w

/-- The order that a comparison of two values looks at. `none` if they cannot be compared, and
`some none` if one is a NaN. -/
def order? : Value → Value → Option (Option Ordering)
  | str s, str t => some (some (Ord.compare s t))
  | int a, int b => some (some (Ord.compare a.toInt b.toInt))
  | v, w =>
    match v.looseNumber?, w.looseNumber? with
    | some a, some b => some (Number.compare? a b)
    | _, _ => none

def compare (op : BinOp) (left right : Value) : Except EvalError Value :=
  if left.isNull || right.isNull then .ok null
  else
    match left.order? right with
    | some (some o) => .ok (bool (op.admits o))
    | some none => .ok (bool false)
    | none => .error (.typeFault (.cannotCompare op left.kind right.kind))

def looseEquals : Value → Value → Bool
  | null, null => true
  | null, _ => false
  | _, null => false
  | str s, str t => s == t
  | bool a, bool b => a == b
  | int a, int b => a == b
  | v, w =>
    if v.isShared || w.isShared then v.same w
    else
      match v.looseNumber?, w.looseNumber? with
      | some a, some b => a.toFloat == b.toFloat
      | _, _ => false

/-- The negation of a value. -/
def not (v : Value) : Value := bool (!v.isTruthy)

/-- The branch of a conditional that its condition chooses. -/
def select (condition yes no : Value) : Value := if condition.isTruthy then yes else no

variable {W : Type}

/-- `v[key]`. -/
def keyed (env : Embedding W) (v key : Value) : Action W Value :=
  if v.isNull then return null else v.getKeyed env key

/-- A fresh array. -/
def ofItems (items : List Value) : Action W Value := Action.newArray items.toArray

/-- A fresh object with the keys in the order of their values; the last of equal keys counts. -/
def ofEntries (keys : List String) (values : List Value) : Action W Value :=
  Action.newObject (Fields.ofPairs (keys.zip values))

end Value

/-- An operator on two values that are both known, so that nothing is left to skip. -/
def BinOp.apply (h : Heap) (op : BinOp) (left right : Value) : Except EvalError Value :=
  match op with
  | .arith .add => left.add h right
  | .arith .subtract => left.subtract right
  | .arith op =>
    if left.isNull || right.isNull then .ok .null else Value.arithmetic op left right
  | .relation _ => Value.compare op left right
  | .equal => .ok (.bool (left.looseEquals right))
  | .notEqual => .ok (.bool (!left.looseEquals right))
  | .and => .ok (.bool (left.isTruthy && right.isTruthy))
  | .or => .ok (.bool (left.isTruthy || right.isTruthy))

end TemplateExpr
