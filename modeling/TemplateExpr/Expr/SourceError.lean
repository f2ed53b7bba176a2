import TemplateExpr.Token

/-!
# Errors of source texts

* `GrammarFault`   what is wrong with a list of tokens;
* `GrammarError`   such a fault with its location;
* `SourceError`    the reason why a source text has no tree.
-/

namespace TemplateExpr

inductive GrammarFault where
  | unexpectedToken (text : String)
  | unexpectedEnd
  /-- A closing bracket where a statement starts. -/
  | unconsumedToken (text : String)
  | missing (spelling : String)
  | notAssignable (source : String)
  | incompleteConditional (source : String)
  | filterInChain
deriving DecidableEq, Repr

def GrammarFault.reason : GrammarFault → String
  | unexpectedToken text => "Unexpected token " ++ text
  | unexpectedEnd => "Unexpected end of expression"
  | unconsumedToken text => "Unconsumed token " ++ text
  | missing spelling => "Missing expected " ++ spelling
  | notAssignable source => "Expression " ++ source ++ " is not assignable"
  | incompleteConditional source =>
    "Conditional expression " ++ source ++ " requires all 3 expressions"
  | filterInChain => "cannot have a filter in a chain"

/-- Where a fault was found. -/
inductive Location where
  /-- The column of a token, counted from one. -/
  | column (n : Nat)
  /-- All tokens were read. -/
  | atEnd
deriving DecidableEq, Repr

def Location.describe : Location → String
  | column n => "at column " ++ toString n ++ " in"
  | atEnd => "at the end of"

/-- The location of the first of the tokens that are left. -/
def Location.ofTokens : List Token → Location
  | [] => atEnd
  | t :: _ => column (t.index + 1)

structure GrammarError where
  fault : GrammarFault
  location : Location
  source : String
deriving DecidableEq, Repr

def GrammarError.message (e : GrammarError) : String :=
  "Parser Error: " ++ e.fault.reason ++ " " ++ e.location.describe ++ " expression [" ++
    e.source ++ "]"

inductive SourceError where
  | lex (e : LexError)
  | grammar (e : GrammarError)
deriving DecidableEq, Repr

namespace SourceError

def reason : SourceError → String
  | lex e => e.fault.reason
  | grammar e => e.fault.reason

def message : SourceError → String
  | lex e => e.message
  | grammar e => e.message

end SourceError

end TemplateExpr
