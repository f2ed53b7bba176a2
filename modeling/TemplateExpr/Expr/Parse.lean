import TemplateExpr.Expr
import TemplateExpr.Expr.SourceError
import TemplateExpr.Token.Scan

/-!
# From tokens to trees

Each level of the grammar has its function. It reads from the front of the tokens and returns what
it read with the tokens that are left, which are fewer.

* `Grammar.expression`   an assignment, a conditional or anything tighter;
* `Grammar.filtered`     an expression with pipes;
* `Grammar.statements`   statements up to the end of the tokens;
* `Expr.parse`           the tree of a source text.
-/

namespace TemplateExpr

namespace Grammar

/-- What was read, and fewer than `bound` tokens that are left. -/
structure Parsed (α : Type) (bound : Nat) where
  value : α
  rest : List Token
  shorter : rest.length < bound

abbrev Outcome (α : Type) (bound : Nat) := Except GrammarError (Parsed α bound)

def failAt {α : Type} (source : String) (tokens : List Token) (fault : GrammarFault) :
    Except GrammarError α :=
  .error ⟨fault, .ofTokens tokens, source⟩

def startsWith (spelling : String) : List Token → Bool
  | [] => false
  | t :: _ => t.isSpelled spelling

/-- The tokens after the first if that is spelled as given. -/
def skip? (spelling : String) : (ts : List Token) →
    Option { rest : List Token // rest.length < ts.length }
  | [] => none
  | t :: rest => if t.isSpelled spelling then some ⟨rest, by simp⟩ else none

def expect (source spelling : String) (ts : List Token) :
    Except GrammarError { rest : List Token // rest.length < ts.length } :=
  match skip? spelling ts with
  | some rest => .ok rest
  | none => failAt source ts (.missing spelling)

def unexpected {α : Type} (source : String) : List Token → Except GrammarError α
  | [] => failAt source [] .unexpectedEnd
  | t :: rest => failAt source (t :: rest) (.unexpectedToken t.text)

def first (source : String) : (ts : List Token) → Outcome Token ts.length
  | [] => unexpected source []
  | t :: rest => .ok ⟨t, rest, by simp⟩

def name (source : String) : (ts : List Token) → Outcome String ts.length
  | [] => unexpected source []
  | t :: rest =>
    match t.name? with
    | some n => .ok ⟨n, rest, by simp⟩
    | none => unexpected source (t :: rest)

/-- The place in the source where the first token stands, or the end of the source. -/
def indexOf (source : String) : List Token → Nat
  | [] => source.length
  | t :: _ => t.index

/-- The source text from the first of the tokens up to the first of those left. -/
def spanText (source : String) (tokens rest : List Token) : String :=
  let first := indexOf source tokens
  let size := indexOf source rest - first
  String.ofList (Text.trim ((source.toList.drop first).take size))

/-- The operator of a level that a token is. -/
def operator? (p : Precedence) (t : Token) : Option BinOp :=
  p.operators.find? fun op => t.isSpelled op.symbol

/-- The key of an entry of an object literal: a string, or the text of a word or a number. -/
def key? (t : Token) : Option String :=
  match t.content with
  | .str s => some s
  | .word | .number _ => some t.text
  | .symbol => none

/-- The constant that a word stands for. -/
def constant? (t : Token) : Option Value :=
  if t.isSpelled "null" || t.isSpelled "undefined" then some .null
  else if t.isSpelled "true" then some (.bool true)
  else if t.isSpelled "false" then some (.bool false)
  else none

mutual

def expression (source : String) (ts : List Token) : Outcome Expr ts.length :=
  match conditional source ts with
  | .error e => .error e
  | .ok ⟨target, rest, h⟩ =>
    match skip? "=" rest with
    | none => .ok ⟨target, rest, h⟩
    | some ⟨rest', h'⟩ =>
      if target.isAssignable then
        match expression source rest' with
        | .error e => .error e
        | .ok ⟨value, rest'', h''⟩ => .ok ⟨.assign target value, rest'', by omega⟩
      else failAt source rest (.notAssignable (spanText source ts rest))
termination_by ts.length * 32 + 17

def conditional (source : String) (ts : List Token) : Outcome Expr ts.length :=
  match binary source .disjunction ts with
  | .error e => .error e
  | .ok ⟨condition, rest, h⟩ =>
    match skip? "?" rest with
    | none => .ok ⟨condition, rest, h⟩
    | some ⟨rest₁, h₁⟩ =>
      match expression source rest₁ with
      | .error e => .error e
      | .ok ⟨yes, rest₂, h₂⟩ =>
        match skip? ":" rest₂ with
        | none => failAt source rest₂ (.incompleteConditional (spanText source ts rest₂))
        | some ⟨rest₃, h₃⟩ =>
          match expression source rest₃ with
          | .error e => .error e
          | .ok ⟨no, rest₄, h₄⟩ => .ok ⟨.conditional condition yes no, rest₄, by omega⟩
termination_by ts.length * 32 + 16
decreasing_by
  · simp only [Precedence.height]; omega
  all_goals omega

/-- Operands with operators of one level between them, grouped to the left. -/
def binary (source : String) (p : Precedence) (ts : List Token) : Outcome Expr ts.length :=
  match operand source p ts with
  | .error e => .error e
  | .ok ⟨left, rest, h⟩ =>
    match binaryRest source p left rest with
    | .error e => .error e
    | .ok ⟨e, rest', h'⟩ => .ok ⟨e, rest', by omega⟩
termination_by ts.length * 32 + 2 * p.height + 5
decreasing_by all_goals have := p.height_le; omega

/-- An operand of a level is an operation of the next tighter one. -/
def operand (source : String) (p : Precedence) (ts : List Token) : Outcome Expr ts.length :=
  match _tighter : p.tighter? with
  | some q => binary source q ts
  | none => unary source ts
termination_by ts.length * 32 + 2 * p.height + 4
decreasing_by
  · have := Precedence.height_tighter _tighter; omega
  · omega

def binaryRest (source : String) (p : Precedence) (left : Expr) (ts : List Token) :
    Outcome Expr (ts.length + 1) :=
  match ts with
  | [] => .ok ⟨left, [], by simp⟩
  | t :: rest =>
    match operator? p t with
    | none => .ok ⟨left, t :: rest, by simp⟩
    | some op =>
      match operand source p rest with
      | .error e => .error e
      | .ok ⟨right, rest₁, h₁⟩ =>
        match binaryRest source p (.binary op left right) rest₁ with
        | .error e => .error e
        | .ok ⟨e, rest₂, h₂⟩ => .ok ⟨e, rest₂, by simp only [List.length_cons]; omega⟩
termination_by ts.length * 32
decreasing_by all_goals have := p.height_le; simp only [List.length_cons]; omega

/-- Signs and negations. A minus subtracts from zero, and a plus leaves no trace. -/
def unary (source : String) (ts : List Token) : Outcome Expr ts.length :=
  match skip? "+" ts with
  | some ⟨rest, h⟩ =>
    match unary source rest with
    | .error e => .error e
    | .ok ⟨e, rest', h'⟩ => .ok ⟨e, rest', by omega⟩
  | none =>
    match skip? "-" ts with
    | some ⟨rest, h⟩ =>
      match unary source rest with
      | .error e => .error e
      | .ok ⟨e, rest', h'⟩ =>
        .ok ⟨.binary (.arith .subtract) (.literal (.int 0)) e, rest', by omega⟩
    | none =>
      match skip? "!" ts with
      | some ⟨rest, h⟩ =>
        match unary source rest with
        | .error e => .error e
        | .ok ⟨e, rest', h'⟩ => .ok ⟨.not e, rest', by omega⟩
      | none => access source ts
termination_by ts.length * 32 + 3

def access (source : String) (ts : List Token) : Outcome Expr ts.length :=
  match primary source ts with
  | .error e => .error e
  | .ok ⟨start, rest, h⟩ =>
    match accessRest source start rest with
    | .error e => .error e
    | .ok ⟨e, rest', h'⟩ => .ok ⟨e, rest', by omega⟩
termination_by ts.length * 32 + 2

/-- Members, keys and calls after an expression. -/
def accessRest (source : String) (start : Expr) (ts : List Token) :
    Outcome Expr (ts.length + 1) :=
  match skip? "." ts with
  | some ⟨rest, h⟩ =>
    match name source rest with
    | .error e => .error e
    | .ok ⟨n, rest₁, h₁⟩ =>
      match skip? "(" rest₁ with
      | none =>
        match accessRest source (.member start n) rest₁ with
        | .error e => .error e
        | .ok ⟨e, rest₂, h₂⟩ => .ok ⟨e, rest₂, by omega⟩
      | some ⟨rest₂, h₂⟩ =>
        match arguments source ")" rest₂ with
        | .error e => .error e
        | .ok ⟨args, rest₃, h₃⟩ =>
          match accessRest source (.callMember start n args) rest₃ with
          | .error e => .error e
          | .ok ⟨e, rest₄, h₄⟩ => .ok ⟨e, rest₄, by omega⟩
  | none =>
    match skip? "[" ts with
    | some ⟨rest, h⟩ =>
      match expression source rest with
      | .error e => .error e
      | .ok ⟨key, rest₁, h₁⟩ =>
        match expect source "]" rest₁ with
        | .error e => .error e
        | .ok ⟨rest₂, h₂⟩ =>
          match accessRest source (.keyed start key) rest₂ with
          | .error e => .error e
          | .ok ⟨e, rest₃, h₃⟩ => .ok ⟨e, rest₃, by omega⟩
    | none =>
      match skip? "(" ts with
      | some ⟨rest, h⟩ =>
        match arguments source ")" rest with
        | .error e => .error e
        | .ok ⟨args, rest₁, h₁⟩ =>
          match accessRest source (.callFunction start args) rest₁ with
          | .error e => .error e
          | .ok ⟨e, rest₂, h₂⟩ => .ok ⟨e, rest₂, by omega⟩
      | none => .ok ⟨start, ts, by omega⟩
termination_by ts.length * 32

def primary (source : String) (ts : List Token) : Outcome Expr ts.length :=
  match skip? "(" ts with
  | some ⟨rest, h⟩ =>
    match expression source rest with
    | .error e => .error e
    | .ok ⟨e, rest₁, h₁⟩ =>
      match expect source ")" rest₁ with
      | .error e => .error e
      | .ok ⟨rest₂, h₂⟩ => .ok ⟨e, rest₂, by omega⟩
  | none =>
    match skip? "[" ts with
    | some ⟨rest, h⟩ =>
      match arguments source "]" rest with
      | .error e => .error e
      | .ok ⟨elements, rest₁, h₁⟩ => .ok ⟨.array elements, rest₁, by omega⟩
    | none =>
      match skip? "\x7b" ts with
      | some ⟨rest, h⟩ =>
        match entries source rest with
        | .error e => .error e
        | .ok ⟨pairs, rest₁, h₁⟩ =>
          .ok ⟨.object (pairs.map Prod.fst) (pairs.map Prod.snd), rest₁, by omega⟩
      | none =>
        match first source ts with
        | .error e => .error e
        | .ok ⟨t, rest, h⟩ =>
          match constant? t with
          | some v => .ok ⟨.literal v, rest, h⟩
          | none =>
            match t.content with
            | .number n => .ok ⟨.literal (.ofNumber n), rest, h⟩
            | .str s => .ok ⟨.str s, rest, h⟩
            | .symbol => unexpected source ts
            | .word =>
              match skip? "(" rest with
              | none => .ok ⟨.scope t.text, rest, h⟩
              | some ⟨rest₁, h₁⟩ =>
                match arguments source ")" rest₁ with
                | .error e => .error e
                | .ok ⟨args, rest₂, h₂⟩ => .ok ⟨.callScope t.text args, rest₂, by omega⟩
termination_by ts.length * 32 + 1

/-- Expressions with commas between them up to a closing bracket, which is read too. -/
def arguments (source close : String) (ts : List Token) :
    Outcome (List Expr) ts.length :=
  match skip? close ts with
  | some ⟨rest, h⟩ => .ok ⟨[], rest, h⟩
  | none =>
    match items source ts with
    | .error e => .error e
    | .ok ⟨es, rest, h⟩ =>
      match expect source close rest with
      | .error e => .error e
      | .ok ⟨rest', h'⟩ => .ok ⟨es, rest', by omega⟩
termination_by ts.length * 32 + 19

/-- One or more expressions with commas between them. -/
def items (source : String) (ts : List Token) : Outcome (List Expr) ts.length :=
  match expression source ts with
  | .error e => .error e
  | .ok ⟨e, rest, h⟩ =>
    match skip? "," rest with
    | none => .ok ⟨[e], rest, h⟩
    | some ⟨rest₁, h₁⟩ =>
      match items source rest₁ with
      | .error e => .error e
      | .ok ⟨es, rest₂, h₂⟩ => .ok ⟨e :: es, rest₂, by omega⟩
termination_by ts.length * 32 + 18

/-- The entries of an object literal up to the closing brace, which is read too. -/
def entries (source : String) (ts : List Token) : Outcome (List (String × Expr)) ts.length :=
  match skip? "\x7d" ts with
  | some ⟨rest, h⟩ => .ok ⟨[], rest, h⟩
  | none =>
    match pairs source ts with
    | .error e => .error e
    | .ok ⟨ps, rest, h⟩ =>
      match expect source "\x7d" rest with
      | .error e => .error e
      | .ok ⟨rest', h'⟩ => .ok ⟨ps, rest', by omega⟩
termination_by ts.length * 32 + 19

/-- One or more entries with commas between them. -/
def pairs (source : String) (ts : List Token) : Outcome (List (String × Expr)) ts.length :=
  match ts with
  | [] => unexpected source []
  | t :: rest =>
    match key? t with
    | none => unexpected source (t :: rest)
    | some key =>
      match expect source ":" rest with
      | .error e => .error e
      | .ok ⟨rest₁, h₁⟩ =>
        match expression source rest₁ with
        | .error e => .error e
        | .ok ⟨value, rest₂, h₂⟩ =>
          match skip? "," rest₂ with
          | none => .ok ⟨[(key, value)], rest₂, by simp only [List.length_cons]; omega⟩
          | some ⟨rest₃, h₃⟩ =>
            match pairs source rest₃ with
            | .error e => .error e
            | .ok ⟨ps, rest₄, h₄⟩ =>
              .ok ⟨(key, value) :: ps, rest₄, by simp only [List.length_cons]; omega⟩
termination_by ts.length * 32
decreasing_by all_goals simp only [List.length_cons]; omega

end

/-- The arguments of a filter, each after a colon. -/
def filterArgs (source : String) (ts : List Token) : Outcome (List Expr) (ts.length + 1) :=
  match skip? ":" ts with
  | none => .ok ⟨[], ts, by omega⟩
  | some ⟨rest, h⟩ =>
    match expression source rest with
    | .error e => .error e
    | .ok ⟨arg, rest₁, h₁⟩ =>
      match filterArgs source rest₁ with
      | .error e => .error e
      | .ok ⟨args, rest₂, h₂⟩ => .ok ⟨arg :: args, rest₂, by omega⟩
termination_by ts.length

/-- Pipes after an expression, grouped to the left. -/
def filterRest (source : String) (input : Expr) (ts : List Token) :
    Outcome Expr (ts.length + 1) :=
  match skip? "|" ts with
  | none => .ok ⟨input, ts, by omega⟩
  | some ⟨rest, h⟩ =>
    match name source rest with
    | .error e => .error e
    | .ok ⟨n, rest₁, h₁⟩ =>
      match filterArgs source rest₁ with
      | .error e => .error e
      | .ok ⟨args, rest₂, h₂⟩ =>
        match filterRest source (.filter input n args) rest₂ with
        | .error e => .error e
        | .ok ⟨e, rest₃, h₃⟩ => .ok ⟨e, rest₃, by omega⟩
termination_by ts.length

def filtered (source : String) (ts : List Token) : Outcome Expr ts.length :=
  match expression source ts with
  | .error e => .error e
  | .ok ⟨input, rest, h⟩ =>
    match filterRest source input rest with
    | .error e => .error e
    | .ok ⟨e, rest', h'⟩ => .ok ⟨e, rest', by omega⟩

/-- The tokens after the semicolons at the front. -/
def skipSemicolons (ts : List Token) : List Token := ts.dropWhile (·.isSpelled ";")

def startsWithCloser (ts : List Token) : Bool :=
  startsWith ")" ts || startsWith "\x7d" ts || startsWith "]" ts

/-- Statements up to the end. Once a semicolon was seen, no statement may be a filter. -/
def statements (source : String) (separated : Bool) (ts : List Token) :
    Except GrammarError (List Expr) :=
  match ts with
  | [] => .ok []
  | t :: tail =>
    if startsWithCloser (t :: tail) then failAt source (t :: tail) (.unconsumedToken t.text)
    else
      match filtered source (t :: tail) with
      | .error e => .error e
      | .ok ⟨e, rest, _shorter⟩ =>
        let separated := separated || startsWith ";" rest
        let rest' := skipSemicolons rest
        if separated && e.isFilter then failAt source rest' .filterInChain
        else
          match statements source separated rest' with
          | .error e => .error e
          | .ok es => .ok (e :: es)
termination_by ts.length
decreasing_by
  exact Nat.lt_of_le_of_lt (Lexeme.length_dropWhile_le (·.isSpelled ";") rest) _shorter

/-- One statement is itself; none or several are a chain. -/
def combine : List Expr → Expr
  | [e] => e
  | es => .chain es

/-- The tree of a list of tokens. -/
def program (source : String) (ts : List Token) : Except GrammarError Expr :=
  (statements source (startsWith ";" ts) (skipSemicolons ts)).map combine

end Grammar

/-- The tree of a source text. -/
def Expr.parse (source : String) : Except SourceError Expr :=
  match Token.scan source with
  | .error e => .error (.lex e)
  | .ok ts =>
    match Grammar.program source ts with
    | .error e => .error (.grammar e)
    | .ok e => .ok e

end TemplateExpr
