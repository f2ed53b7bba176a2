import TemplateExpr.Expr
import TemplateExpr.Token

/-!
# The source text of a tree

Binary operations, conditionals and assignments are written in parentheses, and a whole float
keeps a fraction.

* `Expr.render`   the text of a tree. A literal may hold any value, so its text depends on the
                  heap.
-/

namespace TemplateExpr

/-- Infinity is written as a number that is too large for any other float. -/
def literalText (h : Heap) : Value → String
  | .float x =>
    match writeExpanded x with
    | some text => text
    | none => if x == Binary64.infinity false then "1e999" else h.text (.float x)
  | v => h.text v

/-- A key stands for itself if it is a name, and is quoted otherwise. -/
def keyText (key : String) : String :=
  if isName key.toList then key else Text.quoted key

namespace Expr

mutual

def render (h : Heap) : Expr → String
  | scope name => name
  | member receiver name => render h receiver ++ "." ++ name
  | keyed receiver key => render h receiver ++ "[" ++ render h key ++ "]"
  | callScope name args => name ++ "(" ++ ", ".intercalate (renderAll h args) ++ ")"
  | callMember receiver name args =>
    render h receiver ++ "." ++ name ++ "(" ++ ", ".intercalate (renderAll h args) ++ ")"
  | callFunction callee args =>
    render h callee ++ "(" ++ ", ".intercalate (renderAll h args) ++ ")"
  | binary op left right =>
    "(" ++ render h left ++ " " ++ op.symbol ++ " " ++ render h right ++ ")"
  | not operand => "!" ++ render h operand
  | conditional condition yes no =>
    "(" ++ render h condition ++ " ? " ++ render h yes ++ " : " ++ render h no ++ ")"
  | assign target value => "(" ++ render h target ++ " = " ++ render h value ++ ")"
  | literal value => literalText h value
  | str s => Text.quoted s
  | array elements => "[" ++ ", ".intercalate (renderAll h elements) ++ "]"
  | object keys values => "\x7b" ++ ", ".intercalate (renderEntries h keys values) ++ "\x7d"
  | filter input name args =>
    render h input ++ " | " ++ name ++ String.join ((renderAll h args).map (":" ++ ·))
  | chain statements => "; ".intercalate (renderAll h statements)

def renderAll (h : Heap) : List Expr → List String
  | [] => []
  | e :: rest => render h e :: renderAll h rest

/-- The shorter of the keys and the values decides how many entries there are. -/
def renderEntries (h : Heap) : List String → List Expr → List String
  | key :: keys, value :: values =>
    (keyText key ++ ": " ++ render h value) :: renderEntries h keys values
  | _, _ => []

end

end Expr

end TemplateExpr
