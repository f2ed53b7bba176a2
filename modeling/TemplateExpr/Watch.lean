import TemplateExpr.Expr.Evaluate

/-!
# Watch trees

A watch tree is what a change detector reads again and again. Its nodes are reads, calls and pure
functions of their inputs. A filter node remembers the arguments of its last call and replaces
only those that changed.

* `Combinator`, `Watch`    the nodes;
* `Watch.read`             the current value of a tree;
* `Watch.render`           the text of a tree;
* `Watch.outline`          its description.
-/

namespace TemplateExpr

/-- What a node reports: a value, or a collection whose contents are compared. -/
inductive Observed where
  | value (v : Value)
  | changes (v : Value)

namespace Observed

def get : Observed → Value
  | value v => v
  | changes v => v

def isChanges : Observed → Bool
  | value _ => false
  | changes _ => true

def equals (h : Heap) : Observed → Observed → Bool
  | value v, value w => h.equals v w
  | changes v, changes w => h.equals v w
  | _, _ => false

end Observed

/-- The function of a pure node. -/
inductive Combinator (W : Type) where
  | binary (op : BinOp)
  | not
  | select
  | keyed
  | array
  | object (keys : List String)
  /-- A filter with the number of the slot that holds its last arguments. -/
  | filter (slot : Nat) (run : Filter W)

inductive Watch (W : Type) where
  /-- The value that the tree is read against. -/
  | context
  /-- A fixed value, and a name if it stands for a context. -/
  | constant (v : Value) (id : Option String)
  | field (base : Watch W) (name : String)
  | method (base : Watch W) (name : String) (args : List (Watch W))
  /-- A pure function with the source text that it came from. -/
  | compute (label : String) (combinator : Combinator W) (args : List (Watch W))
  /-- The contents of the inner value are watched. -/
  | collection (inner : Watch W)

instance (W : Type) : Inhabited (Watch W) := ⟨.context⟩

/-- The arguments that each filter saw last. -/
structure Memos where
  slots : Array (List Value) := #[]

namespace Memos

def empty : Memos := {}

def get (m : Memos) (slot : Nat) : List Value := m.slots[slot]?.getD []

def set (m : Memos) (slot : Nat) (args : List Value) : Memos :=
  { slots := m.slots.setIfInBounds slot args }

/-- A new slot that holds nulls. -/
def new (m : Memos) (arity : Nat) : Nat × Memos :=
  (m.slots.size, { slots := m.slots.push (List.replicate arity .null) })

/-- The last arguments with those replaced that are not the same any more. -/
def refresh : List Value → List Value → List Value
  | last, [] => last
  | [], args => args
  | old :: last, v :: rest => (if old.same v then old else v) :: refresh last rest

end Memos

/-- The store with the memory of the filters. Functions and host objects see only the store. -/
structure WatchStore (W : Type) where
  store : Store W
  memos : Memos

abbrev WatchAction (W : Type) := EStateM EvalError (WatchStore W)

variable {W : Type}

def Action.lift {α : Type} (x : Action W α) : WatchAction W α := fun s =>
  match x s.store with
  | .ok a store => .ok a { s with store }
  | .error e store => .error e { s with store }

namespace Combinator

def wrongArity {α : Type} (label : String) (expected : Nat) (args : List Observed) :
    Action W α :=
  Action.fail (.typeFault (.wrongArity label expected args.length))

/-- The remembered arguments of a filter, brought up to date. -/
def remembered (slot : Nat) (args : List Value) : WatchAction W (List Value) := fun s =>
  let fresh := Memos.refresh (s.memos.get slot) args
  .ok fresh { s with memos := s.memos.set slot fresh }

def apply (env : Embedding W) (f : Combinator W) (args : List Observed) : WatchAction W Value :=
  match f with
  | binary op =>
    match args with
    | [left, right] => Action.lift do
      Action.ofExcept (op.apply (← Action.heap) left.get right.get)
    | _ => Action.lift (wrongArity op.symbol 2 args)
  | not =>
    match args with
    | [v] => return v.get.not
    | _ => Action.lift (wrongArity "!" 1 args)
  | select =>
    match args with
    | [condition, yes, no] => return Value.select condition.get yes.get no.get
    | _ => Action.lift (wrongArity "?:" 3 args)
  | keyed =>
    match args with
    | [v, key] => Action.lift (v.get.keyed env key.get)
    | _ => Action.lift (wrongArity "[]" 2 args)
  | array => Action.lift (Value.ofItems (args.map Observed.get))
  | object keys => Action.lift (Value.ofEntries keys (args.map Observed.get))
  | filter slot run => do
    let values ← remembered slot (args.map Observed.get)
    Action.lift (run values)

end Combinator

namespace Watch

def isCollection : Watch W → Bool
  | collection _ => true
  | _ => false

/-! ## reading -/

mutual

/-- The current value of a tree. Reads and calls on null give null. -/
def read (env : Embedding W) (ambient : Value) : Watch W → WatchAction W Observed
  | context => return .value ambient
  | constant v _ => return .value v
  | field base name => do
    let v := (← read env ambient base).get
    return .value (← Action.lift (v.get env name))
  | method base name args => do
    let v := (← read env ambient base).get
    if v.isNull then return .value .null
    let inputs ← readAll env ambient args
    match ← Action.lift (v.callMethod env name (inputs.map Observed.get)) with
    | some v => return .value v
    | none => Action.lift (Action.fail (.undefinedFunction name))
  | compute _ f args => do
    let inputs ← readAll env ambient args
    return .value (← f.apply env inputs)
  | collection inner => do
    return .changes (← read env ambient inner).get

def readAll (env : Embedding W) (ambient : Value) :
    List (Watch W) → WatchAction W (List Observed)
  | [] => return []
  | w :: rest => do
    let v ← read env ambient w
    return v :: (← readAll env ambient rest)

end

/-! ## texts -/

/-- The text before the name of a field or method: nothing if it is read from the context. -/
def withBase (base : Watch W) (text name : String) : String :=
  match base with
  | context => name
  | _ => text ++ "." ++ name

mutual

def render (h : Heap) : Watch W → String
  | context => ""
  | constant _ (some id) => id
  | constant (.str s) none => Text.described s
  | constant v none => h.text v
  | field base name => withBase base (render h base) name
  | method base name args =>
    withBase base (render h base) name ++ "(" ++ ", ".intercalate (renderAll h args) ++ ")"
  | compute label _ _ => label
  | collection inner => "#collection(" ++ render h inner ++ ")"

def renderAll (h : Heap) : List (Watch W) → List String
  | [] => []
  | w :: rest => render h w :: renderAll h rest

end

def idOutline : Option String → Outline
  | none => .atom "None"
  | some id => .tuple "Some" [Outline.str id]

mutual

def outline (h : Heap) : Watch W → Outline
  | context => .atom "ContextReference"
  | constant v id => .record "Constant" [("value", h.outline v), ("id", idOutline id)] false
  | field base name =>
    .record "FieldRead" [("base", outline h base), ("name", Outline.str name)] false
  | method base name args =>
    .record "Method" [("base", outline h base), ("name", Outline.str name),
      ("args", .list (outlineAll h args))] false
  | compute label _ args =>
    .record "PureFunction" [("label", Outline.str label), ("args", .list (outlineAll h args))]
      true
  | collection inner => .tuple "Collection" [outline h inner]

def outlineAll (h : Heap) : List (Watch W) → List Outline
  | [] => []
  | w :: rest => outline h w :: outlineAll h rest

end

end Watch

end TemplateExpr
