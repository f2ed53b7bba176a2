import TemplateExpr.Filter
import TemplateExpr.Json.Convert
import TemplateExpr.Text.Case

/-!
# The filters of every template

* `uppercase`, `lowercase`   change the case of a text, and leave every other value;
* `json`                     the value as a JSON text on several lines;
* `limitTo`                  the first items or characters, or the last if the limit is negative.
-/

namespace TemplateExpr

namespace Filter

variable {W : Type}

/-- Changes a text and leaves every other value; no value at all is null. -/
def onText (f : List Char → List Char) : Filter W
  | [] => return .null
  | .str s :: _ => return .str (String.ofList (f s.toList))
  | v :: _ => return v

def json : Filter W := fun args => do
  return .str ((← Action.heap).toJson (args.headD .null)).pretty

/-- At most `limit` of the first elements, or of the last if the limit is negative. -/
def window {α : Type} (limit : Int) (xs : List α) : List α :=
  if 0 ≤ limit then xs.take limit.toNat else xs.drop (xs.length - limit.natAbs)

def limitTo : Filter W := fun args => do
  let input := args.headD .null
  match args[1]?.bind Value.asInt? with
  | none => return input
  | some limit =>
    match input with
    | .array ref =>
      let items := (← Action.heap).items ref
      Action.newArray (window limit.toInt items.toList).toArray
    | .str s => return .str (String.ofList (window limit.toInt s.toList))
    | v => return v

end Filter

def FilterTable.builtin {W : Type} : FilterTable W :=
  FilterTable.empty
    |>.insert "uppercase" (Filter.onText Text.upper)
    |>.insert "lowercase" (Filter.onText Text.lower)
    |>.insert "json" Filter.json
    |>.insert "limitTo" Filter.limitTo

end TemplateExpr
