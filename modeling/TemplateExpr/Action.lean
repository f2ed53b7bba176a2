import TemplateExpr.EvalError
import TemplateExpr.Snapshot

/-!
# Actions

An action reads and changes a store: the heap, and whatever state the embedding program keeps. It
ends with a result or an error, and what it changed before an error stays changed.

* `Action`      computations on a store;
* `Embedding`   what the functions and host objects of the embedding program do.
-/

namespace TemplateExpr

/-- The heap with the state `W` of the embedding program. -/
structure Store (W : Type) where
  heap : Heap
  world : W

abbrev Action (W : Type) := EStateM EvalError (Store W)

namespace Action

variable {W α : Type}

def heap : Action W Heap := fun s => .ok s.heap s

/-- Changes the heap and takes a result from the change. -/
def onHeap (f : Heap → α × Heap) : Action W α := fun s =>
  let (a, heap) := f s.heap
  .ok a { s with heap }

def setHeap (heap : Heap) : Action W Unit := fun s => .ok () { s with heap }

def fail (e : EvalError) : Action W α := fun s => .error e s

def ofExcept : Except EvalError α → Action W α
  | .ok a => pure a
  | .error e => fail e

def newArray (items : Array Value) : Action W Value := onHeap (·.newArray items)

def newObject (fields : Fields Value) : Action W Value := onHeap (·.newObject fields)

/-- A scope with locals in front of it. -/
def newOverlay (scope locals : Value) : Action W Value := onHeap (·.newOverlay scope locals)

end Action

/-- What the embedding program's functions and host objects do. Both are known by their numbers. -/
structure Embedding (W : Type) where
  call : Nat → List Value → Action W Value
  /-- Reads a property of a host object, if it has it. -/
  get : Nat → String → Action W (Option Value)
  /-- Writes a property of a host object; the answer is whether it was accepted. -/
  set : Nat → String → Value → Action W Bool
  /-- Calls a method of a host object, if it has it. -/
  invoke : Nat → String → List Value → Action W (Option Value)

namespace Embedding

variable {W : Type}

/-- Without functions and host objects. -/
def none : Embedding W where
  call _ _ := pure .null
  get _ _ := pure Option.none
  set _ _ _ := pure false
  invoke _ _ _ := pure Option.none

/-- Calls a value if it is a function. -/
def callValue? (env : Embedding W) (v : Option Value) (args : List Value) :
    Action W (Option Value) :=
  match v with
  | some (.function f) => some <$> env.call f args
  | _ => pure Option.none

end Embedding

end TemplateExpr
