import TemplateExpr.Action
import TemplateExpr.Text.Case

/-!
# Reading, writing and calling through values

* `Value.lookup`, `Value.get`       a property, with or without telling missing from null;
* `Value.set`                       writes a property;
* `Value.getKeyed`, `Value.setKeyed`   the same with a computed key;
* `Value.callMethod`                calls a method, if the value has it.

The names of an overlay are those of its locals and then of its scope; writes go to the scope.
-/

namespace TemplateExpr

/-- How far past the end of an array a write may go. -/
def maxArrayGap : Nat := 65536

namespace Value

variable {W : Type} (env : Embedding W)

def lookup : Value → String → Action W (Option Value)
  | object ref, name => do return (← Action.heap).fields ref |>.get? name
  | host id, name => env.get id name
  | overlay _ scope locals, name => do
    match ← lookup locals name with
    | some v => return some v
    | none => lookup scope name
  | array ref, name => do
    if name = "length" then return some (ofNat ((← Action.heap).items ref).size)
    else return none
  | str s, name => return if name = "length" then some (ofNat s.length) else none
  | _, _ => return none

def get (v : Value) (name : String) : Action W Value := do
  return (← lookup env v name).getD null

def set : Value → String → Value → Action W Unit
  | object ref, name, v => do
    let heap ← Action.heap
    Action.setHeap (heap.setFields ref ((heap.fields ref).insert name v))
  | host id, name, v => do
    if ← env.set id name v then return ()
    else Action.fail (.typeFault (.cannotSet name .hostObject))
  | overlay _ scope _, name, v => set scope name v
  | other, name, _ => Action.fail (.typeFault (.cannotSet name other.kind))

/-- The items of a text are its characters. -/
def charAt (s : String) (index : Nat) : Value :=
  match s.toList[index]? with
  | some c => str (String.singleton c)
  | none => null

def getKeyed (v key : Value) : Action W Value :=
  match v, key.asInt? with
  | null, _ => return null
  | array ref, some _ => do
    let items := (← Action.heap).items ref
    return (key.asIndex?.bind (items[·]?)).getD null
  | str s, some _ => return (key.asIndex?.map (charAt s)).getD null
  | v, _ => do get env v ((← Action.heap).text key)

/-- The items with one of them set; missing ones before it are null. -/
def setItem (items : Array Value) (index : Nat) (v : Value) : Array Value :=
  (items ++ Array.replicate (index + 1 - items.size) null).setIfInBounds index v

def setKeyed (receiver key v : Value) : Action W Unit :=
  match receiver with
  | array ref => do
    let heap ← Action.heap
    let items := heap.items ref
    match key.asIndex? with
    | some index =>
      if index ≤ items.size + maxArrayGap then
        Action.setHeap (heap.setItems ref (setItem items index v))
      else Action.fail (.typeFault (.indexTooFar index items.size))
    | none => Action.fail (.typeFault (.badIndex key.kind (heap.text key)))
  | receiver => do set env receiver ((← Action.heap).text key) v

/-! ## methods -/

/-- How many characters stand before the first occurrence of a text in another. -/
def findText (needle : List Char) : List Char → Option Nat
  | [] => if needle.isEmpty then some 0 else none
  | c :: rest =>
    if needle.isPrefixOf (c :: rest) then some 0 else (findText needle rest).map (· + 1)

def position : Option Nat → Value
  | some n => ofNat n
  | none => int (-1)

/-- The methods of arrays. -/
def arrayMethod (heap : Heap) (items : List Value) (name : String) (args : List Value) :
    Option Value :=
  if name = "indexOf" then
    some (position (items.findIdx? (·.strictEquals (args.headD null))))
  else if name = "join" then
    let separator := match args with
      | [] => ","
      | v :: _ => heap.text v
    some (str (separator.intercalate (items.map heap.text)))
  else none

/-- The methods of texts. -/
def textMethod (heap : Heap) (s : String) (name : String) (args : List Value) : Option Value :=
  if name = "indexOf" then
    let needle := match args with
      | [] => ""
      | v :: _ => heap.text v
    some (position (findText needle.toList s.toList))
  else if name = "toUpperCase" then some (str (String.ofList (Text.upper s.toList)))
  else if name = "toLowerCase" then some (str (String.ofList (Text.lower s.toList)))
  else none

def callMethod : Value → String → List Value → Action W (Option Value)
  | object ref, name, args => do
    env.callValue? ((← Action.heap).fields ref |>.get? name) args
  | host id, name, args => env.invoke id name args
  | overlay _ scope locals, name, args => do
    match ← lookup env locals name with
    | some (function f) => some <$> env.call f args
    | _ => callMethod scope name args
  | array ref, name, args => do
    let heap ← Action.heap
    return arrayMethod heap (heap.items ref).toList name args
  | str s, name, args => do return textMethod (← Action.heap) s name args
  | _, _, _ => return none

end Value

end TemplateExpr
