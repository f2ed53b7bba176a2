import Mathlib
import TemplateExpr.Expr.Evaluate
import TemplateExpr.Expr.Parse
import TemplateExpr.Proofs.Action
import TemplateExpr.Proofs.Expr.Parts

/-!
# How often the nodes of a tree are evaluated

An evaluation goes to each node at most once, but for one case: where the receiver of an assignment
is null, an object is written to its place, and for that the parts of the receiver are evaluated
again.

* `Expr.trace`        evaluation that tells which nodes it evaluates and where it makes objects;
* `Frugal`            no node is evaluated again unless an object was made above it;
* `Traces`            an action does what another one does, and tells events of a kind;
* `Expr.traced`       evaluation with a trace is evaluation, and it is frugal;
* `Expr.assignOnce`   an assignment that goes to its receiver and its key once;
* `Expr.assign_executions`   how often an assignment evaluates the parts of its target.
-/

namespace TemplateExpr

variable {W α β : Type}

/-! ## traces -/

/-- What an evaluation does at a node. A node is known by the numbers of the parts that lead to it,
the last one first. -/
inductive Event where
  /-- It begins to evaluate the node. -/
  | run (node : List Nat)
  /-- The node was null, and it makes an object for its place. -/
  | make (node : List Nat)
deriving DecidableEq

structure TracedStore (W : Type) where
  store : Store W
  trace : List Event

abbrev TracedAction (W : Type) := EStateM EvalError (TracedStore W)

/-- The result with the trace beside its store. -/
def withTrace (trace : List Event) :
    EStateM.Result EvalError (Store W) α → EStateM.Result EvalError (TracedStore W) α
  | .ok a s => .ok a ⟨s, trace⟩
  | .error e s => .error e ⟨s, trace⟩

namespace TracedAction

def lift (x : Action W α) : TracedAction W α := fun s => withTrace s.trace (x s.store)

def tell (event : Event) : TracedAction W Unit := fun s =>
  .ok () { s with trace := s.trace ++ [event] }

end TracedAction

open TracedAction (lift tell)

namespace Expr

variable (env : Embedding W)

mutual

/-- Evaluates a tree that is the node `node`, and tells which nodes it evaluates. -/
def trace (filters : FilterLookup W) (scope : Value) (node : List Nat) (e : Expr) :
    TracedAction W Value := do
  tell (.run node)
  match e with
  | .scope name => lift (scope.get env name)
  | member receiver name => do
    let v ← trace filters scope (0 :: node) receiver
    lift (v.get env name)
  | keyed receiver key => do
    let v ← trace filters scope (0 :: node) receiver
    let k ← trace filters scope (1 :: node) key
    lift (v.keyed env k)
  | callScope name args => do
    let values ← traceAll filters scope node 0 args
    lift (do
      match ← scope.callMethod env name values with
      | some v => return v
      | none => Action.fail (.undefinedFunction name))
  | callMember receiver name args => do
    let v ← trace filters scope (0 :: node) receiver
    if v.isNull then return .null
    let values ← traceAll filters scope node 1 args
    lift (do
      match ← v.callMethod env name values with
      | some v => return v
      | none => Action.fail (.undefinedFunction name))
  | callFunction callee args => do
    match ← trace filters scope (0 :: node) callee with
    | .function f => do
      let values ← traceAll filters scope node 1 args
      lift (env.call f values)
    | .null => return .null
    | _ => lift (do Action.fail (.notAFunction (callee.render (← Action.heap))))
  | binary .and left right => do
    if (← trace filters scope (0 :: node) left).isTruthy then
      return .bool (← trace filters scope (1 :: node) right).isTruthy
    else return .bool false
  | binary .or left right => do
    if (← trace filters scope (0 :: node) left).isTruthy then return .bool true
    else return .bool (← trace filters scope (1 :: node) right).isTruthy
  | binary op left right => do
    let l ← trace filters scope (0 :: node) left
    let r ← trace filters scope (1 :: node) right
    lift (do Action.ofExcept (op.apply (← Action.heap) l r))
  | not operand => do return (← trace filters scope (0 :: node) operand).not
  | conditional condition yes no => do
    if (← trace filters scope (0 :: node) condition).isTruthy then
      trace filters scope (1 :: node) yes
    else trace filters scope (2 :: node) no
  | assign target value => do
    let v ← trace filters scope (1 :: node) value
    traceAssign filters scope v (0 :: node) target
  | literal v => return v
  | str s => return .str s
  | array elements => do
    let values ← traceAll filters scope node 0 elements
    lift (Value.ofItems values)
  | object keys values => do
    let values ← traceAll filters scope node 0 values
    lift (Value.ofEntries keys values)
  | filter input name args =>
    match filters name with
    | none => lift (Action.fail (.unknownFilter name))
    | some f => do
      let v ← trace filters scope (0 :: node) input
      let values ← traceAll filters scope node 1 args
      lift (f (v :: values))
  | chain statements => traceChain filters scope .null node 0 statements

/-- The parts of a node from the part `i` on. -/
def traceAll (filters : FilterLookup W) (scope : Value) (node : List Nat) (i : Nat) :
    List Expr → TracedAction W (List Value)
  | [] => return []
  | e :: rest => do
    let v ← trace filters scope (i :: node) e
    return v :: (← traceAll filters scope node (i + 1) rest)

def traceChain (filters : FilterLookup W) (scope last : Value) (node : List Nat) (i : Nat) :
    List Expr → TracedAction W Value
  | [] => return last
  | e :: rest => do
    let v ← trace filters scope (i :: node) e
    traceChain filters scope (if v.isNull then last else v) node (i + 1) rest

/-- Writes to the place that the node names, and tells for which nodes it makes objects. -/
def traceAssign (filters : FilterLookup W) (scope v : Value) (node : List Nat) :
    Expr → TracedAction W Value
  | .scope name => lift (do scope.set env name v; return v)
  | member receiver name => do
    let found ← trace filters scope (0 :: node) receiver
    -- Writing to the place of the receiver evaluates the receiver's own parts again.
    let target ← (if found.isNull then do
        tell (.make (0 :: node))
        let fresh ← lift (Action.newObject [])
        traceAssign filters scope fresh (0 :: node) receiver
      else pure found)
    lift (do target.set env name v; return v)
  | keyed receiver key => do
    let found ← trace filters scope (0 :: node) receiver
    let target ← (if found.isNull then do
        tell (.make (0 :: node))
        let fresh ← lift (Action.newObject [])
        traceAssign filters scope fresh (0 :: node) receiver
      else pure found)
    let k ← trace filters scope (1 :: node) key
    lift (do target.setKeyed env k v; return v)
  | other => lift (do Action.fail (.notAssignable (other.render (← Action.heap))))

end

/-- The receiver of a write, or the object that is made for its place. -/
def forWrite (filters : FilterLookup W) (scope : Value) (receiver : Expr) : Action W Value := do
  let found ← receiver.evaluate env filters scope
  if found.isNull then
    let fresh ← Action.newObject []
    receiver.assignTo env filters scope fresh
  else return found

def traceForWrite (filters : FilterLookup W) (scope : Value) (node : List Nat) (receiver : Expr) :
    TracedAction W Value := do
  let found ← receiver.trace env filters scope node
  if found.isNull then
    tell (.make node)
    let fresh ← lift (Action.newObject [])
    receiver.traceAssign env filters scope fresh node
  else return found

variable (filters : FilterLookup W) (scope v : Value) (receiver : Expr) (node : List Nat)

theorem assignTo_member (name : String) :
    (member receiver name).assignTo env filters scope v = (do
      let target ← receiver.forWrite env filters scope
      target.set env name v
      return v) := by
  rw [assignTo, forWrite, bind_assoc]
  congr 1
  funext found
  cases found.isNull <;> simp only [if_true, if_false, Bool.false_eq_true, bind_assoc, pure_bind]

theorem assignTo_keyed (key : Expr) :
    (keyed receiver key).assignTo env filters scope v = (do
      let target ← receiver.forWrite env filters scope
      let k ← key.evaluate env filters scope
      target.setKeyed env k v
      return v) := by
  rw [assignTo, forWrite, bind_assoc]
  congr 1
  funext found
  cases found.isNull <;> simp only [if_true, if_false, Bool.false_eq_true, bind_assoc, pure_bind]

theorem traceAssign_member (name : String) :
    (member receiver name).traceAssign env filters scope v node = (do
      let target ← receiver.traceForWrite env filters scope (0 :: node)
      lift (do target.set env name v; return v)) := by
  rw [traceAssign, traceForWrite, bind_assoc]

theorem traceAssign_keyed (key : Expr) :
    (keyed receiver key).traceAssign env filters scope v node = (do
      let target ← receiver.traceForWrite env filters scope (0 :: node)
      let k ← key.trace env filters scope (1 :: node)
      lift (do target.setKeyed env k v; return v)) := by
  rw [traceAssign, traceForWrite, bind_assoc]

end Expr

/-! ## counting -/

/-- Whether an object is made for a node that `node` is a part of. -/
def Event.isMadeAbove (node : List Nat) : Event → Bool
  | run _ => false
  | make made => decide (made <:+ node ∧ made ≠ node)

/-- How many objects were made for nodes that `node` is a part of. -/
def madeAbove (node : List Nat) (events : List Event) : Nat :=
  events.countP (·.isMadeAbove node)

theorem madeAbove_append (node : List Nat) (es fs : List Event) :
    madeAbove node (es ++ fs) = madeAbove node es + madeAbove node fs := List.countP_append

/-- The node `p` is the part `i` of `node`, or a later one, or below one of these. -/
def Below (node : List Nat) (i : Nat) (p : List Nat) : Prop :=
  ∃ j, i ≤ j ∧ (j :: node) <:+ p

theorem Below.suffix {node p : List Nat} {i : Nat} (h : Below node i p) : node <:+ p := by
  obtain ⟨j, _, hp⟩ := h
  exact (List.suffix_cons j node).trans hp

theorem Below.ne {node p : List Nat} {i : Nat} (h : Below node i p) : node ≠ p := by
  rintro rfl
  obtain ⟨j, _, hp⟩ := h
  have hle := hp.length_le
  rw [List.length_cons] at hle
  omega

/-- Parts have no nodes in common. -/
theorem Below.not_part {node p : List Nat} {i j : Nat} (h : Below node i p) (hlt : j < i) :
    ¬ (j :: node) <:+ p := by
  obtain ⟨k, hk, hp⟩ := h
  intro hp'
  have hsame := (List.suffix_of_suffix_length_le hp hp' (Nat.le_refl _)).eq_of_length rfl
  rw [List.cons.injEq] at hsame
  omega

/-- Only nodes inside are evaluated, and none of them is evaluated again unless an object was made
for a node that it is a part of. -/
structure Frugal (inside : List Nat → Prop) (events : List Event) : Prop where
  mem_inside : ∀ p, .run p ∈ events → inside p
  count_le : ∀ p, events.count (.run p) ≤ 1 + madeAbove p events

namespace Frugal

variable {inside inside' : List Nat → Prop} {es fs : List Event}

theorem nil : Frugal inside [] := ⟨fun _ hp => absurd hp List.not_mem_nil, fun _ => Nat.zero_le _⟩

theorem mono (h : Frugal inside es) (hle : ∀ p, inside p → inside' p) : Frugal inside' es :=
  ⟨fun p hp => hle p (h.mem_inside p hp), h.count_le⟩

theorem append (hes : Frugal inside es) (hfs : Frugal inside' fs)
    (hdisjoint : ∀ p, inside p → ¬ inside' p) :
    Frugal (fun p => inside p ∨ inside' p) (es ++ fs) := by
  constructor
  · intro p hp
    exact (List.mem_append.mp hp).imp (hes.mem_inside p) (hfs.mem_inside p)
  · intro p
    have hboth : es.count (.run p) = 0 ∨ fs.count (.run p) = 0 := by
      by_cases hp : .run p ∈ es
      · refine .inr (List.count_eq_zero.mpr fun hp' => ?_)
        exact hdisjoint p (hes.mem_inside p hp) (hfs.mem_inside p hp')
      · exact .inl (List.count_eq_zero.mpr hp)
    have hcount := hes.count_le p
    have hcount' := hfs.count_le p
    rw [List.count_append, madeAbove_append]
    omega

end Frugal

/-- The events of evaluating a node. -/
structure Execution (node : List Nat) (events : List Event) : Prop where
  runs : .run node ∈ events
  frugal : Frugal (node <:+ ·) events

namespace Execution

variable {node : List Nat} {es fs : List Event}

/-- A node is evaluated before its parts. -/
theorem of_parts (h : Frugal (Below node 0) es) : Execution node (.run node :: es) := by
  refine ⟨List.mem_cons_self, ?_, ?_⟩
  · intro p hp
    rcases List.mem_cons.mp hp with hp | hp
    · obtain rfl := Event.run.inj hp
      exact List.suffix_refl p
    · exact (h.mem_inside p hp).suffix
  · intro p
    have hmade : madeAbove p (.run node :: es) = madeAbove p es :=
      List.countP_cons_of_neg (by simp [Event.isMadeAbove])
    rw [hmade]
    by_cases hp : node = p
    · subst hp
      have hnone : es.count (.run node) = 0 :=
        List.count_eq_zero.mpr fun hp => (h.mem_inside node hp).ne rfl
      rw [List.count_cons_self, hnone]
      omega
    · rw [List.count_cons_of_ne fun heq => hp (Event.run.inj heq)]
      exact h.count_le p

/-- The parts of a node may be evaluated again when an object was made for it. -/
theorem make_append (hes : Execution node es) (hfs : Frugal (Below node 0) fs) :
    Execution node (es ++ .make node :: fs) := by
  refine ⟨List.mem_append_left _ hes.runs, ?_, ?_⟩
  · intro p hp
    rcases List.mem_append.mp hp with hp | hp
    · exact hes.frugal.mem_inside p hp
    · rcases List.mem_cons.mp hp with hp | hp
      · cases hp
      · exact (hfs.mem_inside p hp).suffix
  · intro p
    have hcount := hes.frugal.count_le p
    have hcount' := hfs.count_le p
    rw [List.count_append, madeAbove_append, List.count_cons_of_ne (by simp)]
    by_cases hp : .run p ∈ fs
    · have hbelow := hfs.mem_inside p hp
      have hmade : madeAbove p (.make node :: fs) = madeAbove p fs + 1 :=
        List.countP_cons_of_pos (decide_eq_true ⟨hbelow.suffix, hbelow.ne⟩)
      omega
    · have hnone : fs.count (.run p) = 0 := List.count_eq_zero.mpr hp
      omega

end Execution

/-! ## actions with a trace -/

/-- The first action does what the second does, and puts events with `P` at the end of the trace. -/
def Traces (P : List Event → Prop) (x : TracedAction W α) (y : Action W α) : Prop :=
  ∀ s trace, ∃ new, P new ∧ x ⟨s, trace⟩ = withTrace (trace ++ new) (y s)

namespace Traces

variable {P Q R : List Event → Prop} {x : TracedAction W α} {y : Action W α}
  {k : α → TracedAction W β} {l : α → Action W β} {node : List Nat} {i : Nat}

theorem mono (h : Traces P x y) (hle : ∀ es, P es → Q es) : Traces Q x y := by
  intro s trace
  obtain ⟨new, hnew, hx⟩ := h s trace
  exact ⟨new, hle new hnew, hx⟩

theorem lift (hnil : P []) (y : Action W α) : Traces P (lift y) y := by
  intro s trace
  refine ⟨[], hnil, ?_⟩
  rw [List.append_nil]
  rfl

theorem pure (hnil : P []) (a : α) : Traces P (Pure.pure a : TracedAction W α) (Pure.pure a) := by
  intro s trace
  refine ⟨[], hnil, ?_⟩
  rw [List.append_nil]
  rfl

theorem tell {event : Event} (h : Traces P x y) (hle : ∀ es, P es → Q (event :: es)) :
    Traces Q (do TracedAction.tell event; x) y := by
  intro s trace
  obtain ⟨new, hnew, hx⟩ := h s (trace ++ [event])
  refine ⟨event :: new, hle new hnew, ?_⟩
  rw [← List.append_cons] at hx
  exact hx

theorem bind (hx : Traces P x y) (hk : ∀ a, Traces Q (k a) (l a)) (hle : ∀ es, P es → R es)
    (happend : ∀ es fs, P es → Q fs → R (es ++ fs)) : Traces R (x >>= k) (y >>= l) := by
  intro s trace
  obtain ⟨es, hes, hrun⟩ := hx s trace
  rw [bind_apply, bind_apply, hrun]
  cases y s with
  | error e t => exact ⟨es, hle es hes, rfl⟩
  | ok a t =>
    obtain ⟨fs, hfs, hrest⟩ := hk a t (trace ++ es)
    refine ⟨es ++ fs, happend es fs hes hfs, ?_⟩
    rw [← List.append_assoc]
    exact hrest

/-- What comes after tells nothing. -/
theorem followed (hx : Traces P x y) (hk : ∀ a, Traces (Eq []) (k a) (l a)) :
    Traces P (x >>= k) (y >>= l) := by
  refine hx.bind hk (fun _ hes => hes) fun es fs hes hfs => ?_
  rw [← hfs, List.append_nil]
  exact hes

/-- The part `i` and then later ones. -/
theorem bind_part (hx : Traces (Execution (i :: node)) x y)
    (hk : ∀ a, Traces (Frugal (Below node (i + 1))) (k a) (l a)) :
    Traces (Frugal (Below node i)) (x >>= k) (y >>= l) := by
  have hpart : ∀ p, (i :: node) <:+ p → Below node i p := fun p hp => ⟨i, Nat.le_refl i, hp⟩
  have hlater : ∀ p, Below node (i + 1) p → Below node i p :=
    fun p ⟨j, hj, hp⟩ => ⟨j, Nat.le_of_succ_le hj, hp⟩
  refine hx.bind hk (fun es hes => hes.frugal.mono hpart) fun es fs hes hfs => ?_
  refine (hes.frugal.append hfs fun p hp hp' => hp'.not_part (Nat.lt_succ_self i) hp).mono ?_
  exact fun p hp => hp.elim (hpart p) (hlater p)

/-- The last part that is evaluated. -/
theorem last_part (hx : Traces (Execution (i :: node)) x y) {j : Nat} (hle : j ≤ i) :
    Traces (Frugal (Below node j)) x y :=
  hx.mono fun _ hes => hes.frugal.mono fun _ hp => ⟨i, hle, hp⟩

theorem node_tell (hx : Traces (Frugal (Below node 0)) x y) :
    Traces (Execution node) (do TracedAction.tell (.run node); x) y :=
  hx.tell fun _ hes => .of_parts hes

end Traces

namespace Expr

variable {env : Embedding W} {filters : FilterLookup W} {scope : Value}

/-- Evaluating a tree with a trace does what evaluating it does, and the same holds of writing to its
place. -/
structure Traced (env : Embedding W) (filters : FilterLookup W) (scope : Value) (e : Expr) :
    Prop where
  evaluate : ∀ node, Traces (Execution node) (e.trace env filters scope node)
    (e.evaluate env filters scope)
  assign : ∀ v node, Traces (Frugal (Below node 0)) (e.traceAssign env filters scope v node)
    (e.assignTo env filters scope v)

theorem traces_traceAll {es : List Expr} (ih : ∀ e ∈ es, e.Traced env filters scope)
    (node : List Nat) (i : Nat) :
    Traces (Frugal (Below node i)) (traceAll env filters scope node i es)
      (evaluateAll env filters scope es) := by
  induction es generalizing i with
  | nil =>
    rw [traceAll, evaluateAll]
    exact .pure .nil _
  | cons e es ihes =>
    rw [traceAll, evaluateAll]
    refine .bind_part ((ih e List.mem_cons_self).evaluate _) fun v => ?_
    refine .followed (ihes (fun e' he' => ih e' (List.mem_cons_of_mem e he')) (i + 1)) fun vs => ?_
    exact .pure rfl _

theorem traces_traceChain {es : List Expr} (ih : ∀ e ∈ es, e.Traced env filters scope)
    (last : Value) (node : List Nat) (i : Nat) :
    Traces (Frugal (Below node i)) (traceChain env filters scope last node i es)
      (evaluateChain env filters scope last es) := by
  induction es generalizing i last with
  | nil =>
    rw [traceChain, evaluateChain]
    exact .pure .nil _
  | cons e es ihes =>
    rw [traceChain, evaluateChain]
    refine .bind_part ((ih e List.mem_cons_self).evaluate _) fun v => ?_
    exact ihes (fun e' he' => ih e' (List.mem_cons_of_mem e he')) _ (i + 1)

/-- Where the receiver is null, its parts are evaluated once more. -/
theorem traceForWrite_of_null {P Q : List Event → Prop} {receiver : Expr} {node : List Nat}
    (hP : Traces P (receiver.trace env filters scope node) (receiver.evaluate env filters scope))
    (hQ : ∀ v, Traces Q (receiver.traceAssign env filters scope v node)
      (receiver.assignTo env filters scope v))
    {s t : Store W} (hnull : receiver.evaluate env filters scope s = .ok .null t)
    (before : List Event) :
    ∃ es fs, P es ∧ Q fs ∧ receiver.traceForWrite env filters scope node ⟨s, before⟩ =
      withTrace (before ++ (es ++ .make node :: fs)) (receiver.forWrite env filters scope s) := by
  obtain ⟨es, hes, hrun⟩ := hP s before
  have hmade : Traces (fun new => ∃ fs, Q fs ∧ new = .make node :: fs)
      (do
        tell (.make node)
        let fresh ← lift (Action.newObject [])
        receiver.traceAssign env filters scope fresh node)
      (do
        let fresh ← Action.newObject []
        receiver.assignTo env filters scope fresh) := by
    refine .tell (P := Q) ?_ fun fs hfs => ⟨fs, hfs, rfl⟩
    intro s before
    exact hQ _ _ before
  obtain ⟨_, ⟨fs, hfs, rfl⟩, hrest⟩ := hmade t (before ++ es)
  refine ⟨es, fs, hes, hfs, ?_⟩
  rw [traceForWrite, forWrite, bind_apply, bind_apply, hrun, hnull, ← List.append_assoc]
  exact hrest

theorem forWrite_of_ne_null {receiver : Expr} {s : Store W}
    (hfound : ∀ t, receiver.evaluate env filters scope s ≠ .ok .null t) :
    receiver.forWrite env filters scope s = receiver.evaluate env filters scope s := by
  rw [forWrite, bind_apply]
  cases hreceiver : receiver.evaluate env filters scope s with
  | error e t => rfl
  | ok found t =>
    cases found with
    | null => exact absurd hreceiver (hfound t)
    | _ => rfl

theorem traceForWrite_of_ne_null {receiver : Expr} {node : List Nat} {s : Store W}
    {before new : List Event}
    (hrun : receiver.trace env filters scope node ⟨s, before⟩ =
      withTrace (before ++ new) (receiver.evaluate env filters scope s))
    (hfound : ∀ t, receiver.evaluate env filters scope s ≠ .ok .null t) :
    receiver.traceForWrite env filters scope node ⟨s, before⟩ =
      withTrace (before ++ new) (receiver.forWrite env filters scope s) := by
  rw [forWrite_of_ne_null hfound, traceForWrite, bind_apply, hrun]
  cases hreceiver : receiver.evaluate env filters scope s with
  | error e t => rfl
  | ok found t =>
    cases found with
    | null => exact absurd hreceiver (hfound t)
    | _ => rfl

theorem traces_traceForWrite {receiver : Expr} (h : receiver.Traced env filters scope)
    (node : List Nat) :
    Traces (Execution node) (receiver.traceForWrite env filters scope node)
      (receiver.forWrite env filters scope) := by
  intro s before
  by_cases hnull : ∃ t, receiver.evaluate env filters scope s = .ok .null t
  · obtain ⟨t, hnull⟩ := hnull
    obtain ⟨es, fs, hes, hfs, hrun⟩ :=
      traceForWrite_of_null (h.evaluate node) (fun v => h.assign v node) hnull before
    exact ⟨_, hes.make_append hfs, hrun⟩
  · obtain ⟨es, hes, hrun⟩ := h.evaluate node s before
    exact ⟨es, hes, traceForWrite_of_ne_null hrun (not_exists.mp hnull)⟩

theorem traces_binary {op : BinOp} {left right : Expr} (hl : left.Traced env filters scope)
    (hr : right.Traced env filters scope) (node : List Nat) :
    Traces (Execution node) ((binary op left right).trace env filters scope node)
      ((binary op left right).evaluate env filters scope) := by
  by_cases hand : op = .and
  · subst hand
    rw [trace, evaluate]
    refine .node_tell (.bind_part (hl.evaluate _) fun l => ?_)
    cases l.isTruthy with
    | true => exact .bind_part (hr.evaluate _) fun r => .pure .nil _
    | false => exact .pure .nil _
  · by_cases hor : op = .or
    · subst hor
      rw [trace, evaluate]
      refine .node_tell (.bind_part (hl.evaluate _) fun l => ?_)
      cases l.isTruthy with
      | true => exact .pure .nil _
      | false => exact .bind_part (hr.evaluate _) fun r => .pure .nil _
    · rw [trace, evaluate]
      · refine .node_tell (.bind_part (hl.evaluate _) fun l => ?_)
        exact .bind_part (hr.evaluate _) fun r => .lift .nil _
      all_goals assumption

/-- The value is the second part, and it is evaluated first. -/
theorem traces_assign {target value : Expr} (ht : target.Traced env filters scope)
    (hv : value.Traced env filters scope) (node : List Nat) :
    Traces (Execution node) ((assign target value).trace env filters scope node)
      ((assign target value).evaluate env filters scope) := by
  rw [trace, evaluate]
  refine .node_tell ?_
  refine .bind (hv.evaluate _) (fun v => ht.assign v _) ?_ ?_
  · exact fun es hes => hes.frugal.mono fun p hp => ⟨1, Nat.zero_le 1, hp⟩
  · intro es fs hes hfs
    have htarget : ∀ p, Below (0 :: node) 0 p → (0 :: node) <:+ p := fun p hp => hp.suffix
    refine (hes.frugal.append (hfs.mono htarget) fun p hp => ?_).mono ?_
    · exact Below.not_part ⟨1, Nat.le_refl 1, hp⟩ Nat.one_pos
    · rintro p (hp | hp)
      · exact ⟨1, Nat.zero_le 1, hp⟩
      · exact ⟨0, Nat.le_refl 0, hp⟩

theorem traces_trace {e : Expr} (ih : ∀ p ∈ e.parts, p.Traced env filters scope)
    (node : List Nat) :
    Traces (Execution node) (e.trace env filters scope node)
      (e.evaluate env filters scope) := by
  cases e with
  | scope name =>
    rw [trace, evaluate]
    exact .node_tell (.lift .nil _)
  | literal v | str s =>
    rw [trace, evaluate]
    exact .node_tell (.pure .nil _)
  | member receiver name =>
    rw [trace, evaluate]
    refine .node_tell (.bind_part ((ih receiver (by simp [parts])).evaluate _) fun v => ?_)
    exact .lift .nil _
  | not operand =>
    rw [trace, evaluate]
    refine .node_tell (.bind_part ((ih operand (by simp [parts])).evaluate _) fun v => ?_)
    exact .pure .nil _
  | keyed receiver key =>
    rw [trace, evaluate]
    refine .node_tell (.bind_part ((ih receiver (by simp [parts])).evaluate _) fun v => ?_)
    exact .bind_part ((ih key (by simp [parts])).evaluate _) fun k => .lift .nil _
  | binary op left right =>
    exact traces_binary (ih left (by simp [parts])) (ih right (by simp [parts])) node
  | conditional condition yes no =>
    rw [trace, evaluate]
    refine .node_tell (.bind_part ((ih condition (by simp [parts])).evaluate _) fun c => ?_)
    cases c.isTruthy with
    | true => exact ((ih yes (by simp [parts])).evaluate _).last_part (Nat.le_refl 1)
    | false => exact ((ih no (by simp [parts])).evaluate _).last_part (Nat.le_succ 1)
  | callScope name args =>
    rw [trace, evaluate]
    refine .node_tell (.followed (traces_traceAll (fun a ha => ih a ha) node 0) fun vs => ?_)
    exact .lift rfl _
  | callMember receiver name args =>
    rw [trace, evaluate]
    refine .node_tell (.bind_part ((ih receiver (by simp [parts])).evaluate _) fun v => ?_)
    cases v.isNull with
    | true => exact .pure .nil _
    | false =>
      have hargs : ∀ a ∈ args, a.Traced env filters scope :=
        fun a ha => ih a (List.mem_cons_of_mem _ ha)
      refine .followed (traces_traceAll hargs node 1) fun vs => ?_
      exact .lift rfl _
  | callFunction callee args =>
    rw [trace, evaluate]
    refine .node_tell (.bind_part ((ih callee (by simp [parts])).evaluate _) fun v => ?_)
    cases v with
    | function f =>
      have hargs : ∀ a ∈ args, a.Traced env filters scope :=
        fun a ha => ih a (List.mem_cons_of_mem _ ha)
      refine .followed (traces_traceAll hargs node 1) fun vs => ?_
      exact .lift rfl _
    | null => exact .pure .nil _
    | _ => exact .lift .nil _
  | assign target value =>
    exact traces_assign (ih target (by simp [parts])) (ih value (by simp [parts])) node
  | array elements =>
    rw [trace, evaluate]
    refine .node_tell (.followed (traces_traceAll (fun a ha => ih a ha) node 0) fun vs => ?_)
    exact .lift rfl _
  | object keys values =>
    rw [trace, evaluate]
    refine .node_tell (.followed (traces_traceAll (fun a ha => ih a ha) node 0) fun vs => ?_)
    exact .lift rfl _
  | filter input name args =>
    rw [trace, evaluate]
    refine .node_tell ?_
    cases filters name with
    | none => exact .lift .nil _
    | some f =>
      refine .bind_part ((ih input (by simp [parts])).evaluate _) fun v => ?_
      have hargs : ∀ a ∈ args, a.Traced env filters scope :=
        fun a ha => ih a (List.mem_cons_of_mem _ ha)
      refine .followed (traces_traceAll hargs node 1) fun vs => ?_
      exact .lift rfl _
  | chain statements =>
    rw [trace, evaluate]
    exact .node_tell (traces_traceChain (fun a ha => ih a ha) .null node 0)

theorem traces_traceAssign {e : Expr} (ih : ∀ p ∈ e.parts, p.Traced env filters scope)
    (v : Value) (node : List Nat) :
    Traces (Frugal (Below node 0)) (e.traceAssign env filters scope v node)
      (e.assignTo env filters scope v) := by
  cases e with
  | member receiver name =>
    rw [traceAssign_member, assignTo_member]
    refine .bind_part (traces_traceForWrite (ih receiver (by simp [parts])) _) fun c => ?_
    exact .lift .nil _
  | keyed receiver key =>
    rw [traceAssign_keyed, assignTo_keyed]
    refine .bind_part (traces_traceForWrite (ih receiver (by simp [parts])) _) fun c => ?_
    exact .bind_part ((ih key (by simp [parts])).evaluate _) fun k => .lift .nil _
  | _ =>
    simp only [traceAssign, assignTo]
    exact .lift .nil _

theorem traced (e : Expr) : e.Traced env filters scope := by
  induction e using parts_induction with
  | step e ih => exact ⟨traces_trace ih, traces_traceAssign ih⟩

/-! ## assignments -/

/-- The tree that a target is a member or an item of. -/
def receiver? : Expr → Option Expr
  | member receiver _ | keyed receiver _ => some receiver
  | _ => none

/-- Evaluates the receiver and the key of a target, and writes to the place that they give. -/
def assignOnce (env : Embedding W) (filters : FilterLookup W) (scope v : Value) :
    Expr → Action W Value
  | member receiver name => do
    let found ← receiver.evaluate env filters scope
    found.set env name v
    return v
  | keyed receiver key => do
    let found ← receiver.evaluate env filters scope
    let k ← key.evaluate env filters scope
    found.setKeyed env k v
    return v
  | other => other.assignTo env filters scope v

variable {target receiver : Expr} {s t : Store W} {node : List Nat}

/-- An assignment evaluates its receiver and goes on with what that gives. -/
theorem assign_steps (h : target.receiver? = some receiver) (env : Embedding W)
    (filters : FilterLookup W) (scope v : Value) (node : List Nat) :
    ∃ (k : Value → TracedAction W Value) (l : Value → Action W Value),
      (∀ c, Traces (fun _ => True) (k c) (l c)) ∧
      target.traceAssign env filters scope v node =
        receiver.traceForWrite env filters scope (0 :: node) >>= k ∧
      target.assignTo env filters scope v = receiver.forWrite env filters scope >>= l ∧
      target.assignOnce env filters scope v = receiver.evaluate env filters scope >>= l := by
  cases target with
  | member e name =>
    obtain rfl := Option.some.inj h
    refine ⟨_, _, fun c => ?_, traceAssign_member .., assignTo_member .., rfl⟩
    exact .lift trivial _
  | keyed e key =>
    obtain rfl := Option.some.inj h
    refine ⟨_, _, fun c => ?_, traceAssign_keyed .., assignTo_keyed .., rfl⟩
    exact (Traces.followed ((traced key).evaluate _) fun k => .lift rfl _).mono fun _ _ => trivial
  | _ => cases h

theorem assignTo_eq_assignOnce
    (hfound : ∀ r, target.receiver? = some r → ∀ t, r.evaluate env filters scope s ≠ .ok .null t)
    (v : Value) :
    target.assignTo env filters scope v s = target.assignOnce env filters scope v s := by
  cases hr : target.receiver? with
  | none => cases target <;> first | rfl | cases hr
  | some receiver =>
    obtain ⟨k, l, _, _, hassign, honce⟩ := assign_steps hr env filters scope v []
    rw [hassign, honce, bind_apply, bind_apply, forWrite_of_ne_null (hfound receiver hr)]

/-- A tree with a receiver begins with that. -/
theorem traces_receiver (h : target.receiver? = some receiver) (node : List Nat) :
    Traces (.run (0 :: node) ∈ ·) (target.trace env filters scope node)
      (target.evaluate env filters scope) := by
  have hbind : ∀ {k : Value → TracedAction W Value} {l : Value → Action W Value},
      (∀ c, Traces (fun _ => True) (k c) (l c)) →
      Traces (.run (0 :: node) ∈ ·) (do
          tell (.run node)
          let c ← receiver.trace env filters scope (0 :: node)
          k c)
        (receiver.evaluate env filters scope >>= l) := by
    intro k l hk
    refine .tell ?_ fun es hes => List.mem_cons_of_mem _ hes
    exact .bind ((traced receiver).evaluate _) hk (fun es hes => hes.runs)
      fun es fs hes _ => List.mem_append_left fs hes.runs
  cases target with
  | member e name =>
    obtain rfl := Option.some.inj h
    rw [trace, evaluate]
    exact hbind fun c => .lift trivial _
  | keyed e key =>
    obtain rfl := Option.some.inj h
    rw [trace, evaluate]
    refine hbind fun c => ?_
    exact (Traces.followed ((traced key).evaluate _) fun k => .lift rfl _).mono fun _ _ => trivial
  | _ => cases h

theorem traces_assign_receiver (h : target.receiver? = some receiver) (v : Value)
    (node : List Nat) :
    Traces (.run (0 :: node) ∈ ·) (target.traceAssign env filters scope v node)
      (target.assignTo env filters scope v) := by
  obtain ⟨k, l, hk, htrace, hassign, _⟩ := assign_steps h env filters scope v node
  rw [htrace, hassign]
  exact .bind (traces_traceForWrite (traced receiver) _) hk (fun es hes => hes.runs)
    fun es fs hes _ => List.mem_append_left fs hes.runs

/-- What evaluating a tree does at its nodes. -/
def events (env : Embedding W) (filters : FilterLookup W) (scope : Value) (e : Expr)
    (s : Store W) : List Event :=
  (stateAfter (e.trace env filters scope [] ⟨s, []⟩)).trace

theorem events_eq {e : Expr} {new : List Event} {r : EStateM.Result EvalError (Store W) Value}
    (h : e.trace env filters scope [] ⟨s, []⟩ = withTrace new r) :
    e.events env filters scope s = new := by
  rw [events, h]
  cases r <;> rfl

/-- Where the receiver of an assignment is null, an object is made for it between two runs of its
parts. -/
theorem events_of_null {P Q : List Event → Prop} {value : Expr} {v : Value} {t' : Store W}
    (hreceiver : target.receiver? = some receiver)
    (hP : Traces P (receiver.trace env filters scope [0, 0])
      (receiver.evaluate env filters scope))
    (hQ : ∀ v, Traces Q (receiver.traceAssign env filters scope v [0, 0])
      (receiver.assignTo env filters scope v))
    (hvalue : value.evaluate env filters scope s = .ok v t)
    (hnull : receiver.evaluate env filters scope t = .ok .null t') :
    ∃ ds es fs gs, P es ∧ Q fs ∧ (assign target value).events env filters scope s =
      ds ++ es ++ .make [0, 0] :: fs ++ gs := by
  obtain ⟨k, l, hk, htrace, hassign, _⟩ := assign_steps hreceiver env filters scope v [0]
  have htraced : value.Traced env filters scope := traced value
  obtain ⟨ds, _, hds⟩ := htraced.evaluate [1] s [.run []]
  obtain ⟨es, fs, hes, hfs, hwrite⟩ :=
    traceForWrite_of_null hP hQ hnull (.run [] :: ds)
  obtain ⟨gs, hgs⟩ : ∃ gs, target.traceAssign env filters scope v [0] ⟨t, .run [] :: ds⟩ =
      withTrace (.run [] :: ds ++ (es ++ .make [0, 0] :: fs) ++ gs)
        (target.assignTo env filters scope v t) := by
    rw [htrace, hassign, bind_apply, bind_apply, hwrite]
    cases receiver.forWrite env filters scope t with
    | error e u => exact ⟨[], by rw [List.append_nil]; rfl⟩
    | ok c u =>
      obtain ⟨gs, _, hrest⟩ := hk c u (.run [] :: ds ++ (es ++ .make [0, 0] :: fs))
      exact ⟨gs, hrest⟩
  have hrun : (assign target value).trace env filters scope [] ⟨s, []⟩ =
      withTrace (.run [] :: ds ++ es ++ .make [0, 0] :: fs ++ gs)
        (target.assignTo env filters scope v t) := by
    rw [trace]
    show (value.trace env filters scope [1] >>= fun v => _) ⟨s, [.run []]⟩ = _
    rw [bind_apply, hds, hvalue, List.append_assoc (.run [] :: ds)]
    exact hgs
  exact ⟨.run [] :: ds, es, fs, gs, hes, hfs, events_eq hrun⟩

/-- **A part of an assignment is evaluated once at most, and once more for each object made above
it.** If none is made for the receiver of the target, the assignment is one pass over the value, the
receiver and the key. If the receiver is null, its own receiver is evaluated again. -/
theorem assign_executions (env : Embedding W) (filters : FilterLookup W) (scope : Value)
    (target value : Expr) (s : Store W) :
    (assign target value).trace env filters scope [] ⟨s, []⟩ =
        withTrace ((assign target value).events env filters scope s)
          ((assign target value).evaluate env filters scope s) ∧
      (∀ node, ((assign target value).events env filters scope s).count (.run node) ≤
        1 + madeAbove node ((assign target value).events env filters scope s)) ∧
      (.make [0, 0] ∉ (assign target value).events env filters scope s →
        (assign target value).evaluate env filters scope s =
          (do
            let v ← value.evaluate env filters scope
            target.assignOnce env filters scope v) s) ∧
      ∀ receiver v t t', target.receiver? = some receiver → receiver.receiver?.isSome →
        value.evaluate env filters scope s = .ok v t →
        receiver.evaluate env filters scope t = .ok .null t' →
        2 ≤ ((assign target value).events env filters scope s).count (.run [0, 0, 0]) := by
  obtain ⟨new, hnew, hrun⟩ := (traced (assign target value)).evaluate [] s []
  rw [List.nil_append] at hrun
  rw [← events_eq hrun] at hnew hrun
  refine ⟨hrun, hnew.frugal.count_le, ?_, ?_⟩
  · intro hnone
    rw [evaluate, bind_apply, bind_apply]
    cases hvalue : value.evaluate env filters scope s with
    | error e t => rfl
    | ok v t =>
      refine assignTo_eq_assignOnce (fun receiver hreceiver t' hnull => ?_) v
      obtain ⟨ds, es, fs, gs, _, _, hevents⟩ := events_of_null hreceiver
        ((traced receiver).evaluate [0, 0]) (fun v => (traced receiver).assign v [0, 0])
        hvalue hnull
      rw [hevents] at hnone
      exact hnone (by simp)
  · intro receiver v t t' hreceiver hinner hvalue hnull
    obtain ⟨inner, hinner⟩ := Option.isSome_iff_exists.mp hinner
    obtain ⟨ds, es, fs, gs, hes, hfs, hevents⟩ := events_of_null hreceiver
      (traces_receiver hinner [0, 0]) (fun v => traces_assign_receiver hinner v [0, 0])
      hvalue hnull
    have hfirst := List.count_pos_iff.mpr hes
    have hagain := List.count_pos_iff.mpr hfs
    rw [hevents]
    simp only [List.count_append, List.count_cons]
    omega

/-- `a[i = i + 1].x` -/
def countingTarget : Expr :=
  .member (.keyed (.scope "a")
    (.assign (.scope "i") (.binary (.arith .add) (.scope "i") (.literal (.int 1))))) "x"

/-- A scope with an array `a` and a number `i`, and other objects behind it. -/
def countingStore (items : Array Value) (i : Int64) (others : Array (Fields Value)) : Store Unit :=
  ⟨{ arrays := #[items], objects := #[[("a", .array 0), ("i", .int i)]] ++ others }, ()⟩

/-- With an object at the item 1 there is one pass; with no items the array is evaluated again. -/
theorem assign_executions_counting :
    (assign countingTarget (.literal (.int 5))).evaluate .none FilterLookup.none (.object 0)
        (countingStore #[.null, .object 1] 0 #[[]]) =
      countingTarget.assignOnce .none FilterLookup.none (.object 0) (.int 5)
        (countingStore #[.null, .object 1] 0 #[[]]) ∧
    2 ≤ ((assign countingTarget (.literal (.int 5))).events .none FilterLookup.none (.object 0)
      (countingStore #[] 0 #[])).count (.run [0, 0, 0]) := by
  constructor
  · refine (assign_executions .none FilterLookup.none (.object 0) countingTarget
      (.literal (.int 5)) (countingStore #[.null, .object 1] 0 #[[]])).2.2.1 ?_
    exact List.count_eq_zero.mp (by cbv)
  · refine (assign_executions .none FilterLookup.none (.object 0) countingTarget
      (.literal (.int 5)) (countingStore #[] 0 #[])).2.2.2 _ (.int 5) (countingStore #[] 0 #[])
      (countingStore #[] 1 #[]) rfl rfl ?_ ?_
    · rw [evaluate]
      rfl
    · cbv

/-- The key of the receiver is executed twice, and the object that is made for the item 1 ends up as
the item 2. -/
theorem countingTarget_twice :
    parse "a[i = i + 1].x = 5" = .ok (assign countingTarget (.literal (.int 5))) ∧
    ¬ ((assign countingTarget (.literal (.int 5))).events .none FilterLookup.none (.object 0)
      (countingStore #[] 0 #[])).count (.run [1, 0, 0]) ≤ 1 ∧
    (assign countingTarget (.literal (.int 5))).evaluate .none FilterLookup.none (.object 0)
        (countingStore #[] 0 #[]) =
      .ok (.int 5) (countingStore #[.null, .null, .object 1] 2 #[[("x", .int 5)]]) := by
  refine ⟨by cbv, by cbv, by cbv⟩

end Expr

end TemplateExpr
