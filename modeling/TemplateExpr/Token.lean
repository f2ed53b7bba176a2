import TemplateExpr.Number.Arithmetic
import TemplateExpr.Text.Alphabetic
import TemplateExpr.Text.Numeric

/-!
# Tokens

A token is a piece of source text with its place and what it means. Words such as `null` and `if`
are names like any other here.

* `Token.isSpelled`                the token is the symbol or word with a given spelling;
* `Token.name?`                    the name of a word;
* `isNameStart`, `isNamePart`      the characters of names.
-/

namespace TemplateExpr

def isNameStart (c : Char) : Bool := Text.isAlphabetic c || c == '_' || c == '$'

def isNamePart (c : Char) : Bool :=
  Text.isAlphabetic c || Text.isNumeric c || c == '_' || c == '$'

/-- The text is a name: a start character and then parts. -/
def isName : List Char → Bool
  | [] => false
  | c :: rest => isNameStart c && rest.all isNamePart

/-- What a token means. -/
inductive Token.Content where
  /-- An operator or a bracket. -/
  | symbol
  | word
  | number (n : Number)
  /-- A string with its escapes resolved. -/
  | str (s : String)

structure Token where
  /-- How many characters of the source stand before the token. -/
  index : Nat
  /-- The source text, with the quotes of a string. -/
  text : String
  content : Token.Content

namespace Token

def isSpelled (t : Token) (spelling : String) : Bool :=
  match t.content with
  | .symbol | .word => t.text == spelling
  | .number _ | .str _ => false

def name? (t : Token) : Option String :=
  match t.content with
  | .word => some t.text
  | _ => none

end Token

/-- Why a source text has no tokens. -/
inductive LexFault where
  | unterminatedQuote
  /-- A `\u` that is not followed by four hexadecimal digits of a character. -/
  | invalidEscape (digits : String)
  | invalidExponent
  | invalidNumber (text : String)
  | unexpectedCharacter (c : Char)
deriving DecidableEq, Repr

def LexFault.reason : LexFault → String
  | unterminatedQuote => "Unterminated quote"
  | invalidEscape digits => "Invalid unicode escape [\\u" ++ digits ++ "]"
  | invalidExponent => "Invalid exponent"
  | invalidNumber text => "Invalid number " ++ text
  | unexpectedCharacter c => "Unexpected next character [" ++ String.singleton c ++ "]"

structure LexError where
  fault : LexFault
  /-- The column of the character at fault, counted from one. -/
  column : Nat
  source : String
deriving DecidableEq, Repr

def LexError.message (e : LexError) : String :=
  "Lexer Error: " ++ e.fault.reason ++ " at column " ++ toString e.column ++
    " in expression [" ++ e.source ++ "]"

end TemplateExpr
