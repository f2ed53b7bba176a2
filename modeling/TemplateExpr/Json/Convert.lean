import TemplateExpr.Json
import TemplateExpr.Snapshot

/-!
# Documents and values

* `Json.load`        makes a value of a document, with fresh arrays and objects;
* `Snapshot.toJson`  the document of a value. Functions, host objects and floats that are not
                     finite have no form there and become null.
-/

namespace TemplateExpr

namespace Json

/-- An integer above 63 bits becomes the nearest float. -/
def loadInt (n : Int) : Value :=
  match Number.narrow? n with
  | some m => .int m
  | none => .float (Binary64.ofRatio (n < 0) n.natAbs 1)

mutual

def load : Json → StateM Heap Value
  | null => return .null
  | bool b => return .bool b
  | int n => return loadInt n
  | float x => return .float x
  | str s => return .str s
  | array items => do
    let values ← loadItems items
    modifyGet fun h => h.newArray values.toArray
  | object fields => do
    let values ← loadFields fields
    modifyGet fun h => h.newObject (Fields.ofPairs values)

def loadItems : List Json → StateM Heap (List Value)
  | [] => return []
  | x :: rest => do
    let v ← load x
    return v :: (← loadItems rest)

def loadFields : List (String × Json) → StateM Heap (List (String × Value))
  | [] => return []
  | (name, x) :: rest => do
    let v ← load x
    return (name, v) :: (← loadFields rest)

end

end Json

namespace Snapshot

def leafJson : Value → Json
  | .bool b => .bool b
  | .int n => .int n.toInt
  | .float x => if x.isFinite then .float x else .null
  | .str s => .str s
  | _ => .null

mutual

def toJson : Snapshot → Json
  | leaf v => leafJson v
  | array _ items => .array (itemsToJson items)
  | object _ fields => .object (fieldsToJson fields)
  | overlay .. => .null
  | cycle .. => .null

def itemsToJson : List Snapshot → List Json
  | [] => []
  | x :: rest => toJson x :: itemsToJson rest

def fieldsToJson : List (String × Snapshot) → List (String × Json)
  | [] => []
  | (name, x) :: rest => (name, toJson x) :: fieldsToJson rest

end

end Snapshot

/-- The document of a value. -/
def Heap.toJson (h : Heap) (v : Value) : Json := (h.snapshot .data v).toJson

end TemplateExpr
