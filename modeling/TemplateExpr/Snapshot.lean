import TemplateExpr.Heap
import TemplateExpr.Number.Layout
import TemplateExpr.Outline

/-!
# Snapshots

A snapshot is a value with what it reaches in the heap at one moment. How far it reaches is chosen:
a text shows the items of arrays but not the fields of objects. A container that is met again
inside itself is cut off there, so a snapshot is always a finite tree.

* `Snapshot.Reach`    which containers are opened;
* `Heap.snapshot`     the snapshot of a value;
* `Snapshot.text`     the value as part of a text;
* `Snapshot.outline`  the description of a value.
-/

namespace TemplateExpr

inductive Snapshot where
  /-- A value that has no contents or is not opened. -/
  | leaf (v : Value)
  | array (ref : Nat) (items : List Snapshot)
  | object (ref : Nat) (fields : List (String × Snapshot))
  | overlay (id : Nat) (scope locals : Snapshot)
  /-- The container that stands `up` levels above. -/
  | cycle (up : Nat) (v : Value)

/-- Which containers a snapshot opens. -/
inductive Snapshot.Reach where
  | arrays
  /-- Arrays and objects. -/
  | data
  /-- Overlays too. -/
  | everything

def Snapshot.Reach.opens : Reach → Value → Bool
  | _, .array _ => true
  | data, .object _ => true
  | everything, .object _ => true
  | everything, .overlay .. => true
  | _, _ => false

namespace Heap

/-- Unfolds a value below the containers of `path`, the nearest one first. -/
def unfold (h : Heap) (reach : Snapshot.Reach) : Nat → List Value → Value → Snapshot
  | 0, path, v => .cycle path.length v
  | depth + 1, path, v =>
    if !reach.opens v then .leaf v
    else
      match path.findIdx? (Value.same v) with
      | some level => .cycle (level + 1) v
      | none =>
        let inside := h.unfold reach depth (v :: path)
        match v with
        | .array ref => .array ref ((h.items ref).toList.map inside)
        | .object ref => .object ref ((h.fields ref).map fun (name, w) => (name, inside w))
        | .overlay id scope locals => .overlay id (inside scope) (inside locals)
        | v => .leaf v

/-- No path through different containers is longer than their number. -/
def snapshot (h : Heap) (reach : Snapshot.Reach) (v : Value) : Snapshot :=
  h.unfold reach (h.arrays.size + h.objects.size + h.overlays + 1) [] v

end Heap

namespace Snapshot

/-- The text of a value without contents. -/
def leafText : Value → String
  | .null => "null"
  | .bool b => if b then "true" else "false"
  | .int n => toString n.toInt
  | .float x => Layout.text.write x
  | .str s => s
  | .array _ => ""
  | .object _ | .host _ | .overlay .. => "[object Object]"
  | .function _ => "function"

mutual

def text : Snapshot → String
  | leaf v => leafText v
  | array _ items => ",".intercalate (itemTexts items)
  | object .. | overlay .. => "[object Object]"
  | cycle _ v => leafText v

/-- The texts of the items of an array, where null is empty. -/
def itemTexts : List Snapshot → List String
  | [] => []
  | item :: rest =>
    (match item with
      | leaf .null => ""
      | _ => text item) :: itemTexts rest

end

def leafOutline : Value → Outline
  | .null => .atom "Null"
  | .bool b => .atom ("Boolean(" ++ (if b then "true" else "false") ++ ")")
  | .int n => .atom ("Integer(" ++ toString n.toInt ++ ")")
  | .float x => .atom ("Float(" ++ Layout.outline.write x ++ ")")
  | .str s => .atom ("String(" ++ Text.described s ++ ")")
  | .array _ => .atom "Array(..)"
  | .object _ => .atom "Object(..)"
  | .function _ => .atom "Function(..)"
  | .host _ | .overlay .. => .atom "Host(..)"

mutual

def outline : Snapshot → Outline
  | leaf v => leafOutline v
  | array _ items => .tuple "Array" [.list (outlineAll items)]
  | object _ fields => .tuple "Object" [.map (outlineFields fields)]
  | overlay _ scope locals =>
    .tuple "Host" [.record "ScopeLocals"
      [("scope", outline scope), ("locals", outline locals)] false]
  | cycle _ v => leafOutline v

def outlineAll : List Snapshot → List Outline
  | [] => []
  | x :: rest => outline x :: outlineAll rest

def outlineFields : List (String × Snapshot) → List (String × Outline)
  | [] => []
  | (name, x) :: rest => (Text.described name, outline x) :: outlineFields rest

end

end Snapshot

namespace Heap

/-- A value as part of a text. -/
def text (h : Heap) (v : Value) : String := (h.snapshot .arrays v).text

def outline (h : Heap) (v : Value) : Outline := (h.snapshot .everything v).outline

end Heap

end TemplateExpr
