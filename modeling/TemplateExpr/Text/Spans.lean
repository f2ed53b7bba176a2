/-!
# Runs of code points

A property of characters is given by the runs of code points that have it, as of Unicode 17.

* `inSpans`  the character lies in one of the runs.
-/

namespace TemplateExpr.Text

/-- Runs of code points, both ends included. -/
abbrev Spans := List (Nat × Nat)

def inSpans (spans : Spans) (c : Char) : Bool :=
  spans.any fun span => span.1 ≤ c.toNat && c.toNat ≤ span.2

end TemplateExpr.Text
