import TemplateExpr.Action
import TemplateExpr.Outline

/-!
# Filters

A filter is applied to the piped value and the arguments after it. Which names have a filter is up
to the embedding program.

* `Filter`, `FilterLookup`    filters, and how they are found;
* `FilterTable`               named filters, with their lookup and description.
-/

namespace TemplateExpr

abbrev Filter (W : Type) := List Value → Action W Value

abbrev FilterLookup (W : Type) := String → Option (Filter W)

/-- Knows no filter. -/
def FilterLookup.none {W : Type} : FilterLookup W := fun _ => Option.none

structure FilterTable (W : Type) where
  filters : Fields (Filter W)

namespace FilterTable

variable {W : Type}

def empty : FilterTable W := ⟨[]⟩

def insert (table : FilterTable W) (name : String) (filter : Filter W) : FilterTable W :=
  ⟨table.filters.insert name filter⟩

def contains (table : FilterTable W) (name : String) : Bool := table.filters.contains name

def lookup (table : FilterTable W) : FilterLookup W := table.filters.get?

/-- The names in their order. -/
def outline (table : FilterTable W) : Outline :=
  .record "FilterMap" [("filters", .list (table.filters.names.map Outline.str))] false

end FilterTable

end TemplateExpr
