import TemplateExpr.Text.Printable

/-!
# Quoted texts

* `quoted`     a string literal of the expression language: a backslash goes before a quote and
               before a backslash, and every other character stands for itself;
* `described`  a text in a description: characters without a glyph are shown by their number.
-/

namespace TemplateExpr.Text

def escape : List Char → List Char
  | [] => []
  | c :: rest =>
    if c = '"' ∨ c = '\\' then '\\' :: c :: escape rest else c :: escape rest

def quoted (s : String) : String := String.ofList ('"' :: escape s.toList ++ ['"'])

def describeChar (c : Char) : List Char :=
  if c = '\x00' then ['\\', '0']
  else if c = '\t' then ['\\', 't']
  else if c = '\r' then ['\\', 'r']
  else if c = '\n' then ['\\', 'n']
  else if c = '"' ∨ c = '\\' then ['\\', c]
  else if isPrintable c then [c]
  else ['\\', 'u', '\x7b'] ++ Nat.toDigits 16 c.toNat ++ ['\x7d']

def described (s : String) : String :=
  String.ofList ('"' :: s.toList.flatMap describeChar ++ ['"'])

end TemplateExpr.Text
