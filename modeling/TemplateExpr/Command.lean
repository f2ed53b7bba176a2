import TemplateExpr.Filter.Builtin
import TemplateExpr.Json.Read
import TemplateExpr.Watch.Build

/-!
# The command line

* `Command.ofArgs?`   the command that the arguments spell;
* `Command.run`       what a command prints;
* `Command.execute`   the same as an exit code and the texts of the two output streams.
-/

namespace TemplateExpr

inductive Command where
  /-- Prints the tokens of an expression. -/
  | tokens (source : String)
  /-- Checks an expression and prints its tree as source text. -/
  | check (source : String)
  /-- Evaluates an expression in a JSON scope; without one, standard input holds it. -/
  | evaluate (source : String) (input : Option String) (pretty : Bool)
  /-- Prints the watch tree of an expression. -/
  | watch (source : String) (asCollection : Bool)

inductive CommandError where
  | source (e : SourceError)
  | evaluation (e : EvalError)
  | watch (e : WatchError)
  /-- The scope is not a JSON document. -/
  | json

def CommandError.message : CommandError → String
  | source e => e.message
  | evaluation e => "Evaluation error: " ++ e.message
  | watch e => e.message
  | json => "Invalid JSON: the text is not a document"

namespace Command

/-! ## arguments -/

/-- The arguments of a subcommand: its expression and options, in any order. -/
structure Options where
  source : Option String := none
  input : Option String := none
  pretty : Bool := false
  asCollection : Bool := false

def readOptions : List String → Options → Options
  | [], o => o
  | "-i" :: text :: rest, o => readOptions rest { o with input := some text }
  | "--input" :: text :: rest, o => readOptions rest { o with input := some text }
  | arg :: rest, o =>
    let flag := "--input="
    if arg = "-p" ∨ arg = "--pretty" then readOptions rest { o with pretty := true }
    else if arg = "-c" ∨ arg = "--collection" then readOptions rest { o with asCollection := true }
    else if flag.toList.isPrefixOf arg.toList then
      readOptions rest { o with input := some (String.ofList (arg.toList.drop flag.length)) }
    else readOptions rest { o with source := some arg }

def ofArgs? : List String → Option Command
  | [] => none
  | name :: args =>
    let o := readOptions args {}
    match name, o.source with
    | "tokens", some source => some (tokens source)
    | "check", some source => some (check source)
    | "eval", some source => some (evaluate source o.input o.pretty)
    | "watch", some source => some (watch source o.asCollection)
    | _, _ => none

/-- The command evaluates in a scope that it was not given. -/
def readsInput : Command → Bool
  | evaluate _ none _ => true
  | _ => false

/-! ## commands -/

def padLeft (width : Nat) (s : String) : String :=
  String.ofList (List.replicate (width - s.length) ' ' ++ s.toList)

def padRight (width : Nat) (s : String) : String :=
  String.ofList (s.toList ++ List.replicate (width - s.length) ' ')

/-- The value of a literal token. -/
def tokenValue? (t : Token) : Option Value :=
  match t.content with
  | .number n => some (.ofNumber n)
  | .str s => some (.str s)
  | .symbol | .word => none

/-- The column of a token, its text, and the value of a literal as JSON. -/
def tokenLine (t : Token) : String :=
  let column := padLeft 4 (toString (t.index + 1)) ++ "  "
  match tokenValue? t with
  | some v => column ++ padRight 12 t.text ++ " " ++ (Heap.empty.toJson v).compact
  | none => column ++ t.text

def tokenLines (source : String) : Except CommandError (List String) :=
  match Token.scan source with
  | .ok ts => .ok (ts.map tokenLine)
  | .error e => .error (.source (.lex e))

/-- The tree of a text as source text. -/
def canonicalText (source : String) : Except CommandError String :=
  match Expr.parse source with
  | .ok e => .ok (e.render Heap.empty)
  | .error e => .error (.source e)

/-- The scope of a JSON text; a blank or missing one is an empty object. -/
def loadScope (input : Option String) : Except CommandError (Value × Heap) :=
  let text := input.getD ""
  if (Text.trim text.toList).isEmpty then .ok (Heap.empty.newObject [])
  else
    match Json.read? text with
    | some j => .ok (j.load Heap.empty)
    | none => .error .json

/-- Evaluates a text in a JSON scope with the filters of every template. -/
def evaluateText (source : String) (input : Option String) : Except CommandError Json :=
  match loadScope input with
  | .error e => .error e
  | .ok (scope, heap) =>
    match Expr.parse source with
    | .error e => .error (.source e)
    | .ok e =>
      match e.evaluate Embedding.none FilterTable.builtin.lookup scope (⟨heap, ()⟩ : Store Unit)
        with
      | .ok v s => .ok (s.heap.toJson v)
      | .error e _ => .error (.evaluation e)

/-- The text of the watch tree of a text, and its description. -/
def watchText (source : String) (asCollection : Bool) : Except CommandError String :=
  let filters : FilterLookup Unit := FilterTable.builtin.lookup
  match WatchBuilder.build Heap.empty filters source asCollection none {} with
  | .ok tree _ => .ok (tree.render Heap.empty ++ "\n" ++ (tree.outline Heap.empty).expanded)
  | .error e _ => .error (.watch e)

/-- What a command prints, where `stdin` holds the scope that the command was not given. -/
def run (stdin : String) : Command → Except CommandError String
  | tokens source => (tokenLines source).map fun lines => String.join (lines.map (· ++ "\n"))
  | check source => (canonicalText source).map fun text => "Syntax is valid: " ++ text ++ "\n"
  | evaluate source input pretty =>
    (evaluateText source (some (input.getD stdin))).map fun j =>
      (if pretty then j.pretty else j.compact) ++ "\n"
  | watch source asCollection => (watchText source asCollection).map (· ++ "\n")

/-- What a program leaves behind. -/
structure Output where
  code : UInt8
  stdout : String
  stderr : String

def execute (stdin : String) (c : Command) : Output :=
  match c.run stdin with
  | .ok text => ⟨0, text, ""⟩
  | .error e => ⟨1, "", e.message ++ "\n"⟩

/-- The answer to arguments that spell no command. -/
def usage : Output :=
  ⟨2, "", "usage: tokens|check|eval|watch EXPRESSION [--input JSON] [--pretty] [--collection]\n"⟩

end Command

end TemplateExpr
