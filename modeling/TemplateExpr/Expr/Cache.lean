import TemplateExpr.Expr.Parse

/-!
# Parsed texts

A cache keeps the tree of every text that was parsed, so that one text has one tree. A tree is
known by the number under which it was entered.

* `ParseCache.parse`    the tree of a text, entered if the text is new;
* `ParseCache.size`     how many texts were entered.
-/

namespace TemplateExpr

/-- A tree with its number in the cache. -/
structure CachedTree where
  number : Nat
  tree : Expr

structure ParseCache where
  entries : Array (String × Expr) := #[]

namespace ParseCache

def empty : ParseCache := {}

def size (cache : ParseCache) : Nat := cache.entries.size

def find? (cache : ParseCache) (source : String) : Option CachedTree :=
  (cache.entries.findIdx? (·.1 == source)).bind fun number =>
    cache.entries[number]?.map fun entry => ⟨number, entry.2⟩

/-- A text that has no tree is not entered. -/
def parse (source : String) : EStateM SourceError ParseCache CachedTree := fun cache =>
  match cache.find? source with
  | some found => .ok found cache
  | none =>
    match Expr.parse source with
    | .ok tree => .ok ⟨cache.size, tree⟩ { entries := cache.entries.push (source, tree) }
    | .error e => .error e cache

end ParseCache

end TemplateExpr
