/-!
# Named fields

Fields are a list of names with their contents, each name once, in the order of the code points of
the names.

* `Fields.get?`      the content of a name;
* `Fields.insert`    the fields with one content set;
* `Fields.ofPairs`   the fields of a list of pairs, where a later pair wins.
-/

namespace TemplateExpr

abbrev Fields (α : Type) := List (String × α)

namespace Fields

variable {α β : Type}

def get? : Fields α → String → Option α
  | [], _ => none
  | (key, a) :: rest, name => if name = key then some a else get? rest name

def insert : Fields α → String → α → Fields α
  | [], name, a => [(name, a)]
  | (key, b) :: rest, name, a =>
    if name = key then (name, a) :: rest
    else if name < key then (name, a) :: (key, b) :: rest
    else (key, b) :: insert rest name a

def names (fields : Fields α) : List String := fields.map Prod.fst

def contains (fields : Fields α) (name : String) : Bool := (get? fields name).isSome

def ofPairs (pairs : List (String × α)) : Fields α :=
  pairs.foldl (fun fields pair => insert fields pair.1 pair.2) []

theorem get?_insert_self (fields : Fields α) (name : String) (a : α) :
    get? (insert fields name a) name = some a := by
  induction fields with
  | nil => simp [insert, get?]
  | cons pair rest ih =>
    obtain ⟨key, b⟩ := pair
    simp only [insert]
    split
    · simp [get?]
    · next h =>
      split
      · simp [get?]
      · simp [get?, h, ih]

theorem get?_insert_of_ne (fields : Fields α) {name other : String} (a : α) (h : other ≠ name) :
    get? (insert fields name a) other = get? fields other := by
  induction fields with
  | nil => simp [insert, get?, h]
  | cons pair rest ih =>
    obtain ⟨key, b⟩ := pair
    simp only [insert]
    split
    · next e => simp [get?, ← e, h]
    · split
      · simp [get?, h]
      · simp [get?, ih]

end Fields

end TemplateExpr
