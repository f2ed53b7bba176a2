import TemplateExpr.Fields
import TemplateExpr.Number.Layout

/-!
# JSON documents

A document keeps integers and floats apart. Its integers go from `-2 ^ 63` to `2 ^ 64 - 1`, its
floats are finite, and the fields of an object are in the order of their names.

* `Json.equals`    equality of documents;
* `Json.compact`   the text without blanks;
* `Json.pretty`    the text with one item or field a line, indented by two blanks.
-/

namespace TemplateExpr

inductive Json where
  | null
  | bool (b : Bool)
  | int (n : Int)
  | float (x : Float)
  | str (s : String)
  | array (items : List Json)
  | object (fields : List (String × Json))
deriving Inhabited

namespace Json

mutual

def equals : Json → Json → Bool
  | null, null => true
  | bool a, bool b => a == b
  | int m, int n => m == n
  | float x, float y => x == y
  | str s, str t => s == t
  | array xs, array ys => equalItems xs ys
  | object xs, object ys => equalFields xs ys
  | _, _ => false

def equalItems : List Json → List Json → Bool
  | [], [] => true
  | x :: xs, y :: ys => equals x y && equalItems xs ys
  | _, _ => false

def equalFields : List (String × Json) → List (String × Json) → Bool
  | [], [] => true
  | (k, x) :: xs, (l, y) :: ys => k == l && equals x y && equalFields xs ys
  | _, _ => false

end

/-! ## texts -/

def hexDigit (n : Nat) : Char := (Nat.toDigits 16 n).headD '0'

/-- Quotes, backslashes and control characters are escaped. -/
def escapeChar (c : Char) : List Char :=
  if c = '"' ∨ c = '\\' then ['\\', c]
  else if c = '\x08' then ['\\', 'b']
  else if c = '\x0c' then ['\\', 'f']
  else if c = '\n' then ['\\', 'n']
  else if c = '\r' then ['\\', 'r']
  else if c = '\t' then ['\\', 't']
  else if c.toNat < 32 then
    ['\\', 'u', '0', '0', hexDigit (c.toNat / 16), hexDigit (c.toNat % 16)]
  else [c]

def strText (s : String) : String :=
  String.ofList ('"' :: s.toList.flatMap escapeChar ++ ['"'])

mutual

def compact : Json → String
  | null => "null"
  | bool b => if b then "true" else "false"
  | int n => toString n
  | float x => Layout.json.write x
  | str s => strText s
  | array items => "[" ++ ",".intercalate (compactItems items) ++ "]"
  | object fields => "\x7b" ++ ",".intercalate (compactFields fields) ++ "\x7d"

def compactItems : List Json → List String
  | [] => []
  | x :: rest => compact x :: compactItems rest

def compactFields : List (String × Json) → List String
  | [] => []
  | (name, x) :: rest => (strText name ++ ":" ++ compact x) :: compactFields rest

end

/-- Lines between brackets, with commas between them; nothing between them if there are none. -/
def bracketed (margin start stop : String) (lines : List String) : String :=
  if lines.isEmpty then start ++ stop
  else start ++ "\n" ++ ",\n".intercalate (lines.map (margin ++ "  " ++ ·)) ++ "\n" ++
    margin ++ stop

mutual

/-- The text on several lines; those after the first start with the margin. -/
def prettyAt (margin : String) : Json → String
  | array items => bracketed margin "[" "]" (prettyItems (margin ++ "  ") items)
  | object fields => bracketed margin "\x7b" "\x7d" (prettyFields (margin ++ "  ") fields)
  | null => compact null
  | bool b => compact (bool b)
  | int n => compact (int n)
  | float x => compact (float x)
  | str s => compact (str s)

def prettyItems (margin : String) : List Json → List String
  | [] => []
  | x :: rest => prettyAt margin x :: prettyItems margin rest

def prettyFields (margin : String) : List (String × Json) → List String
  | [] => []
  | (name, x) :: rest =>
    (strText name ++ ": " ++ prettyAt margin x) :: prettyFields margin rest

end

def pretty (j : Json) : String := prettyAt "" j

end Json

end TemplateExpr
