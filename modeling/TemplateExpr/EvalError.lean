import TemplateExpr.Operator
import TemplateExpr.Value

/-!
# Errors of evaluation

* `TypeFault`   an operation that a kind of value does not have;
* `EvalError`   why an evaluation failed.
-/

namespace TemplateExpr

inductive TypeFault where
  | cannotSet (name : String) (kind : Value.Kind)
  | indexTooFar (index : Int) (length : Nat)
  | badIndex (kind : Value.Kind) (text : String)
  | cannotOperate (op : ArithOp) (left right : Value.Kind)
  | cannotCompare (op : BinOp) (left right : Value.Kind)
  | wrongArity (label : String) (expected found : Nat)
deriving DecidableEq, Repr

def TypeFault.reason : TypeFault → String
  | cannotSet name kind => "Cannot set property '" ++ name ++ "' on " ++ kind.name
  | indexTooFar index length =>
    "Array index " ++ toString index ++ " is too far past the end of an array of length " ++
      toString length
  | badIndex kind text =>
    "Cannot use " ++ kind.name ++ " key '" ++ text ++
      "' on array; use a non-negative integer index instead"
  | cannotOperate op left right =>
    "Cannot " ++ op.verb ++ " " ++ left.name ++ " and " ++ right.name
  | cannotCompare op left right =>
    "Cannot compare " ++ left.name ++ " " ++ op.symbol ++ " " ++ right.name
  | wrongArity label expected found =>
    "'" ++ label ++ "' expects " ++ toString expected ++ " arguments, got " ++ toString found

inductive EvalError where
  /-- A call of a function that the scope or the receiver does not have. -/
  | undefinedFunction (name : String)
  /-- A call of a value that is not a function, with its source text. -/
  | notAFunction (source : String)
  | unknownFilter (name : String)
  | notAssignable (source : String)
  | typeFault (fault : TypeFault)
  /-- Raised by the embedding program. -/
  | thrown (message : String)
deriving DecidableEq, Repr

def EvalError.message : EvalError → String
  | undefinedFunction name => "Undefined function " ++ name
  | notAFunction source => source ++ " is not a function"
  | unknownFilter name => "No NgFilter: " ++ name ++ " found!"
  | notAssignable source => "Expression " ++ source ++ " is not assignable"
  | typeFault fault => "Type error: " ++ fault.reason
  | thrown message => message

end TemplateExpr
