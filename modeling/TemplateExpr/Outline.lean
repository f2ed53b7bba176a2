import TemplateExpr.Text.Quoted

/-!
# Outlines

An outline describes the structure of something for a reader: names with fields, lists and maps.

* `Outline.compact`    on one line;
* `Outline.expanded`   one field or item a line, indented by four blanks, with a comma after each.
-/

namespace TemplateExpr

inductive Outline where
  | atom (text : String)
  /-- A name with unnamed parts. -/
  | tuple (name : String) (parts : List Outline)
  /-- A name with named parts; `more` if there are others that are not shown. -/
  | record (name : String) (parts : List (String × Outline)) (more : Bool)
  | list (items : List Outline)
  | map (entries : List (String × Outline))

namespace Outline

def str (s : String) : Outline := atom (Text.described s)

mutual

def compact : Outline → String
  | atom text => text
  | tuple name parts => name ++ "(" ++ ", ".intercalate (compactAll parts) ++ ")"
  | record name parts more =>
    let shown := compactNamed parts ++ (if more then [".."] else [])
    if shown.isEmpty then name
    else name ++ " \x7b " ++ ", ".intercalate shown ++ " \x7d"
  | list items => "[" ++ ", ".intercalate (compactAll items) ++ "]"
  | map entries => "\x7b" ++ ", ".intercalate (compactNamed entries) ++ "\x7d"

def compactAll : List Outline → List String
  | [] => []
  | o :: rest => compact o :: compactAll rest

def compactNamed : List (String × Outline) → List String
  | [] => []
  | (name, o) :: rest => (name ++ ": " ++ compact o) :: compactNamed rest

end

/-- The lines between brackets, each after the margin; nothing between them if there are none. -/
def bracketed (margin : String) (start stop : String) (lines : List String) : String :=
  if lines.isEmpty then start ++ stop
  else start ++ "\n" ++ String.join (lines.map fun line => margin ++ "    " ++ line ++ "\n") ++
    margin ++ stop

mutual

/-- The outline on several lines; those after the first start with the margin. -/
def expandedAt (margin : String) : Outline → String
  | atom text => text
  | tuple name parts => bracketed margin (name ++ "(") ")" (expandedAll (margin ++ "    ") parts)
  | record name parts more =>
    let shown := expandedNamed (margin ++ "    ") parts ++ (if more then [".."] else [])
    if shown.isEmpty then name else bracketed margin (name ++ " \x7b") "\x7d" shown
  | list items => bracketed margin "[" "]" (expandedAll (margin ++ "    ") items)
  | map entries => bracketed margin "\x7b" "\x7d" (expandedNamed (margin ++ "    ") entries)

def expandedAll (margin : String) : List Outline → List String
  | [] => []
  | o :: rest => (expandedAt margin o ++ ",") :: expandedAll margin rest

def expandedNamed (margin : String) : List (String × Outline) → List String
  | [] => []
  | (name, o) :: rest => (name ++ ": " ++ expandedAt margin o ++ ",") :: expandedNamed margin rest

end

def expanded (o : Outline) : String := expandedAt "" o

end Outline

end TemplateExpr
