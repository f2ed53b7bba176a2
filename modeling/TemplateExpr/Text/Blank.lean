import TemplateExpr.Text.Spans

/-!
# White space

`isBlank` is the Unicode property White_Space. The zero-width characters U+200B and U+FEFF are not
blank.

* `trim`  drops the blanks at both ends.
-/

namespace TemplateExpr.Text

def blankSpans : Spans :=
  [(0x9, 0xd), (0x20, 0x20), (0x85, 0x85), (0xa0, 0xa0), (0x1680, 0x1680), (0x2000, 0x200a),
    (0x2028, 0x2029), (0x202f, 0x202f), (0x205f, 0x205f), (0x3000, 0x3000)]

def isBlank (c : Char) : Bool := inSpans blankSpans c

/-- The text without the blanks before and after it. -/
def trim (cs : List Char) : List Char :=
  ((cs.dropWhile isBlank).reverse.dropWhile isBlank).reverse

end TemplateExpr.Text
