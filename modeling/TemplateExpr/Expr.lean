import TemplateExpr.Operator
import TemplateExpr.Snapshot

/-!
# Expression trees

* `Expr.isAssignable`   only reads of a name, a member or a key can be written to;
* `Expr.allArgs`        the inputs of a filter in the order of the call;
* `Expr.kind`           the name of a node in messages;
* `Expr.equals`         equality of trees, where values are equal by their contents.
-/

namespace TemplateExpr

inductive Expr where
  /-- A name read from the scope: `user`. -/
  | scope (name : String)
  /-- A member: `user.name`. -/
  | member (receiver : Expr) (name : String)
  /-- A computed key: `items[0]`. -/
  | keyed (receiver key : Expr)
  /-- A call of a function of the scope: `format(price)`. -/
  | callScope (name : String) (args : List Expr)
  /-- A method call: `items.indexOf(x)`. -/
  | callMember (receiver : Expr) (name : String) (args : List Expr)
  /-- A call of any other expression: `handlers[0](event)`. -/
  | callFunction (callee : Expr) (args : List Expr)
  | binary (op : BinOp) (left right : Expr)
  | not (operand : Expr)
  | conditional (condition yes no : Expr)
  | assign (target value : Expr)
  /-- Null, a boolean or a number. -/
  | literal (value : Value)
  | str (s : String)
  | array (elements : List Expr)
  /-- The keys in source order, and their values. -/
  | object (keys : List String) (values : List Expr)
  /-- A pipe: `text | limitTo:3`. -/
  | filter (input : Expr) (name : String) (args : List Expr)
  /-- Statements between semicolons. -/
  | chain (statements : List Expr)
deriving Inhabited

namespace Expr

def isAssignable : Expr → Bool
  | scope _ | member .. | keyed .. => true
  | _ => false

def isFilter : Expr → Bool
  | filter .. => true
  | _ => false

def allArgs : Expr → List Expr
  | filter input _ args => input :: args
  | _ => []

def kind : Expr → String
  | scope _ => "AccessScope"
  | member .. => "AccessMember"
  | keyed .. => "AccessKeyed"
  | callScope .. => "CallScope"
  | callMember .. => "CallMember"
  | callFunction .. => "CallFunction"
  | binary .. => "Binary"
  | not _ => "PrefixNot"
  | conditional .. => "Conditional"
  | assign .. => "Assign"
  | literal _ => "LiteralPrimitive"
  | str _ => "LiteralString"
  | array _ => "LiteralArray"
  | object .. => "LiteralObject"
  | filter .. => "Filter"
  | chain _ => "Chain"

mutual

def equals (h : Heap) : Expr → Expr → Bool
  | scope m, scope n => m == n
  | member a m, member b n => equals h a b && m == n
  | keyed a k, keyed b l => equals h a b && equals h k l
  | callScope m xs, callScope n ys => m == n && equalLists h xs ys
  | callMember a m xs, callMember b n ys => equals h a b && m == n && equalLists h xs ys
  | callFunction f xs, callFunction g ys => equals h f g && equalLists h xs ys
  | binary o a b, binary p c d => o == p && equals h a c && equals h b d
  | not a, not b => equals h a b
  | conditional a b c, conditional d e f => equals h a d && equals h b e && equals h c f
  | assign a b, assign c d => equals h a c && equals h b d
  | literal v, literal w => h.equals v w
  | str s, str t => s == t
  | array xs, array ys => equalLists h xs ys
  | object ks xs, object ls ys => ks == ls && equalLists h xs ys
  | filter a m xs, filter b n ys => equals h a b && m == n && equalLists h xs ys
  | chain xs, chain ys => equalLists h xs ys
  | _, _ => false

def equalLists (h : Heap) : List Expr → List Expr → Bool
  | [], [] => true
  | x :: xs, y :: ys => equals h x y && equalLists h xs ys
  | _, _ => false

end

end Expr

end TemplateExpr
