import TemplateExpr.Expr.Render
import TemplateExpr.Filter
import TemplateExpr.Operator.Apply

/-!
# Evaluation

* `Expr.evaluate`   the value of a tree in a scope;
* `Expr.assignTo`   writes to the place that a tree names, making the objects that are missing on
                    the way.

Operands are evaluated from left to right. `&&`, `||` and conditionals evaluate only what they
need.
-/

namespace TemplateExpr

namespace Expr

variable {W : Type} (env : Embedding W)

mutual

def evaluate (filters : FilterLookup W) (scope : Value) : Expr → Action W Value
  | .scope name => scope.get env name
  | member receiver name => do (← evaluate filters scope receiver).get env name
  | keyed receiver key => do
    let v ← evaluate filters scope receiver
    let k ← evaluate filters scope key
    v.keyed env k
  | callScope name args => do
    let values ← evaluateAll filters scope args
    match ← scope.callMethod env name values with
    | some v => return v
    | none => Action.fail (.undefinedFunction name)
  | callMember receiver name args => do
    let v ← evaluate filters scope receiver
    if v.isNull then return .null
    let values ← evaluateAll filters scope args
    match ← v.callMethod env name values with
    | some v => return v
    | none => Action.fail (.undefinedFunction name)
  | callFunction callee args => do
    match ← evaluate filters scope callee with
    | .function f => do env.call f (← evaluateAll filters scope args)
    | .null => return .null
    | _ => Action.fail (.notAFunction (callee.render (← Action.heap)))
  | binary .and left right => do
    if (← evaluate filters scope left).isTruthy then
      return .bool (← evaluate filters scope right).isTruthy
    else return .bool false
  | binary .or left right => do
    if (← evaluate filters scope left).isTruthy then return .bool true
    else return .bool (← evaluate filters scope right).isTruthy
  | binary op left right => do
    let l ← evaluate filters scope left
    let r ← evaluate filters scope right
    Action.ofExcept (op.apply (← Action.heap) l r)
  | not operand => do return (← evaluate filters scope operand).not
  | conditional condition yes no => do
    if (← evaluate filters scope condition).isTruthy then evaluate filters scope yes
    else evaluate filters scope no
  | assign target value => do
    let v ← evaluate filters scope value
    assignTo filters scope v target
  | literal v => return v
  | str s => return .str s
  | array elements => do Value.ofItems (← evaluateAll filters scope elements)
  | object keys values => do Value.ofEntries keys (← evaluateAll filters scope values)
  | filter input name args =>
    match filters name with
    | none => Action.fail (.unknownFilter name)
    | some f => do
      let v ← evaluate filters scope input
      f (v :: (← evaluateAll filters scope args))
  | chain statements => evaluateChain filters scope .null statements

def evaluateAll (filters : FilterLookup W) (scope : Value) :
    List Expr → Action W (List Value)
  | [] => return []
  | e :: rest => do
    let v ← evaluate filters scope e
    return v :: (← evaluateAll filters scope rest)

/-- Every statement in turn; the last value that is not null counts. -/
def evaluateChain (filters : FilterLookup W) (scope last : Value) :
    List Expr → Action W Value
  | [] => return last
  | e :: rest => do
    let v ← evaluate filters scope e
    evaluateChain filters scope (if v.isNull then last else v) rest

/-- Writes a value to the place that the tree names. A receiver that is null is replaced by a
fresh object, which is written to the receiver's own place first. -/
def assignTo (filters : FilterLookup W) (scope v : Value) : Expr → Action W Value
  | .scope name => do
    scope.set env name v
    return v
  | member receiver name => do
    let found ← evaluate filters scope receiver
    let target ← if found.isNull then do
        let fresh ← Action.newObject []
        assignTo filters scope fresh receiver
      else pure found
    target.set env name v
    return v
  | keyed receiver key => do
    let found ← evaluate filters scope receiver
    let target ← if found.isNull then do
        let fresh ← Action.newObject []
        assignTo filters scope fresh receiver
      else pure found
    let k ← evaluate filters scope key
    target.setKeyed env k v
    return v
  | other => do Action.fail (.notAssignable (other.render (← Action.heap)))

end

/-- Writes a value to the place that the tree names, where no filter is known. -/
def assignValue (scope v : Value) (target : Expr) : Action W Value :=
  target.assignTo env FilterLookup.none scope v

/-- Evaluates a tree in a scope with locals in front of it. -/
def evaluateWith (filters : FilterLookup W) (scope locals : Value) (e : Expr) :
    Action W Value := do
  e.evaluate env filters (← Action.newOverlay scope locals)

/-- Writes to the place that a tree names in a scope with locals in front of it. -/
def assignWith (scope locals v : Value) (target : Expr) : Action W Value := do
  target.assignValue env (← Action.newOverlay scope locals) v

end Expr

end TemplateExpr
