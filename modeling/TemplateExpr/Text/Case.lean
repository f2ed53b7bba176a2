import TemplateExpr.Text.CaseTable
import TemplateExpr.Text.Cased

/-!
# Upper and lower case

Case changes work on whole texts, since a character may become several and a capital sigma is
lowered by its place in the word.

* `upper`  every character by its full upper case;
* `lower`  every character by its full lower case, a sigma at the end of a word as `ς`.
-/

namespace TemplateExpr.Text

/-- The counterpart of a character above ASCII: its expansion if it has one, else its shift. -/
def counterpart (expansions : List (Nat × List Nat)) (runs : List CaseRun) (c : Char) :
    List Char :=
  match expansions.lookup c.toNat with
  | some ns => ns.map Char.ofNat
  | none =>
    match runs.find? (·.covers c.toNat) with
    | some r => [Char.ofNat (r.move c.toNat)]
    | none => [c]

def upperOf (c : Char) : List Char :=
  if c.toNat < 128 then [c.toUpper] else counterpart upperExpansions upperRuns c

def lowerOf (c : Char) : List Char :=
  if c.toNat < 128 then [c.toLower] else counterpart lowerExpansions lowerRuns c

def upper (cs : List Char) : List Char := cs.flatMap upperOf

/-- The first character that is not case-ignorable is cased. -/
def meetsCased (cs : List Char) : Bool :=
  match cs.dropWhile isCaseIgnorable with
  | [] => false
  | c :: _ => isCased c

/-- Lower case of a text after the characters `before`, which are given last first. -/
def lowerAfter (before : List Char) : List Char → List Char
  | [] => []
  | c :: rest =>
    let here := if c = 'Σ' then
        [if meetsCased before && !meetsCased rest then 'ς' else 'σ']
      else lowerOf c
    here ++ lowerAfter (c :: before) rest

def lower (cs : List Char) : List Char := lowerAfter [] cs

end TemplateExpr.Text
