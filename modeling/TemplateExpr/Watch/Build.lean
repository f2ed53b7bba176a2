import TemplateExpr.Expr.Cache
import TemplateExpr.Watch

/-!
# From source text to watch trees

Every node of an expression becomes one node of the watch tree. The inputs of a filter are watched
as collections. Calls of function values, assignments and chains have no watch tree.

* `Watch.ofExpr`    the watch tree of an expression;
* `WatchBuilder`    the state that is shared by the watch trees built from texts;
* `WatchBuilder.build`    the watch tree of a text.
-/

namespace TemplateExpr

inductive WatchError where
  | source (e : SourceError)
  /-- A node that cannot be watched. -/
  | unsupported (kind : String)
  | unknownFilter (name : String)
deriving DecidableEq, Repr

def WatchError.message : WatchError → String
  | source e => e.message
  | unsupported kind => "Can not watch expression containing '" ++ kind ++ "'."
  | unknownFilter name => "No NgFilter: " ++ name ++ " found!"

namespace Watch

variable {W : Type}

/-- Building gives every filter a slot for its arguments. -/
abbrev Build := EStateM WatchError Memos

def newSlot (arity : Nat) : Build Nat := fun m =>
  let (slot, m) := m.new arity
  .ok slot m

def refuse {α : Type} (e : WatchError) : Build α := fun m => .error e m

mutual

/-- The watch tree of an expression whose scope is read from `root`. Labels are source texts, and
literals that live in the heap are written as they are now. -/
def ofExpr (h : Heap) (filters : FilterLookup W) (root : Watch W) : Expr → Build (Watch W)
  | .scope name => return .field root name
  | .member receiver name => do return .field (← ofExpr h filters root receiver) name
  | .callScope name args => do return .method root name (← ofExprs h filters root args)
  | .callMember receiver name args => do
    let base ← ofExpr h filters root receiver
    return .method base name (← ofExprs h filters root args)
  | .binary op left right => do
    let l ← ofExpr h filters root left
    let r ← ofExpr h filters root right
    return .compute ((Expr.binary op left right).render h) (.binary op) [l, r]
  | .not operand => do
    let v ← ofExpr h filters root operand
    return .compute ((Expr.not operand).render h) .not [v]
  | .conditional condition yes no => do
    let c ← ofExpr h filters root condition
    let y ← ofExpr h filters root yes
    let n ← ofExpr h filters root no
    return .compute ((Expr.conditional condition yes no).render h) .select [c, y, n]
  | .keyed receiver key => do
    let v ← ofExpr h filters root receiver
    let k ← ofExpr h filters root key
    return .compute ((Expr.keyed receiver key).render h) .keyed [v, k]
  | .literal v => return .constant v none
  | .str s => return .constant (.str s) none
  | .array elements => do
    let args ← ofExprs h filters root elements
    return .compute ((Expr.array elements).render h) .array args
  | .object keys values => do
    let args ← ofExprs h filters root values
    return .compute ((Expr.object keys values).render h) (.object keys) args
  | .filter input name args =>
    match filters name with
    | none => refuse (.unknownFilter name)
    | some run => do
      let first ← ofExpr h filters root input
      let rest ← ofExprs h filters root args
      let inputs := (first :: rest).map .collection
      let slot ← newSlot inputs.length
      return .compute ((Expr.filter input name args).render h) (.filter slot run) inputs
  | .callFunction callee args => refuse (.unsupported (Expr.callFunction callee args).kind)
  | .assign target value => refuse (.unsupported (Expr.assign target value).kind)
  | .chain statements => refuse (.unsupported (Expr.chain statements).kind)

def ofExprs (h : Heap) (filters : FilterLookup W) (root : Watch W) :
    List Expr → Build (List (Watch W))
  | [] => return []
  | e :: rest => do
    let w ← ofExpr h filters root e
    return w :: (← ofExprs h filters root rest)

end

end Watch

/-- What is shared by the watch trees built from texts: the parsed texts, the number of contexts
that were bound, and the memory of the filters. -/
structure WatchBuilder where
  cache : ParseCache := {}
  contexts : Nat := 0
  memos : Memos := {}

namespace WatchBuilder

variable {W : Type}

/-- The node that scope reads start from: the ambient context, or a bound one, which is numbered
in the order of the requests. -/
def root (context : Option Value) : EStateM WatchError WatchBuilder (Watch W) := fun b =>
  match context with
  | none => .ok .context b
  | some v =>
    .ok (.constant v (some ("#" ++ toString b.contexts))) { b with contexts := b.contexts + 1 }

def parse (source : String) : EStateM WatchError WatchBuilder CachedTree := fun b =>
  match ParseCache.parse source b.cache with
  | .ok tree cache => .ok tree { b with cache }
  | .error e cache => .error (.source e) { b with cache }

def onMemos {α : Type} (x : Watch.Build α) : EStateM WatchError WatchBuilder α := fun b =>
  match x b.memos with
  | .ok a memos => .ok a { b with memos }
  | .error e memos => .error e { b with memos }

/-- The watch tree of a text, with its scope bound to a context if one is given. -/
def build (h : Heap) (filters : FilterLookup W) (source : String) (asCollection : Bool)
    (context : Option Value) : EStateM WatchError WatchBuilder (Watch W) := do
  let start ← root context
  let found ← parse source
  let tree ← onMemos (Watch.ofExpr h filters start found.tree)
  return if asCollection then .collection tree else tree

end WatchBuilder

end TemplateExpr
