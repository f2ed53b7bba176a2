import TemplateExpr.Expr.Evaluate
import TemplateExpr.Proofs.Expr.Parts
import TemplateExpr.Proofs.Heap.Comparison

/-!
# The names of a scope

A tree without assignments asks its scope for two things only: what a name holds, and what a call
of a name gives.

* `Names`, `Value.names`     what a scope answers for its names;
* `Expr.evaluateBy`          evaluation by such answers;
* `Expr.evaluateBy_names`    by the answers of a scope, it is evaluation in that scope;
* `Expr.relates_evaluateBy`  where the answers are alike in two runs, so are the evaluations;
* `Expr.relates_evaluate`    in particular in corresponding scopes.
-/

namespace TemplateExpr

variable {W : Type}

/-- What the names of a scope answer when they are read and when they are called. -/
structure Names (W : Type) where
  get : String → Action W Value
  call : String → List Value → Action W (Option Value)

def Value.names (env : Embedding W) (scope : Value) : Names W := ⟨scope.get env, scope.callMethod env⟩

namespace Expr

section
variable (env : Embedding W) (filters : FilterLookup W) (names : Names W)

mutual

/-- The value of a tree, with its names answered. There is nothing that could be written to. -/
def evaluateBy : Expr → Action W Value
  | .scope name => names.get name
  | member receiver name => do (← evaluateBy receiver).get env name
  | keyed receiver key => do
    let v ← evaluateBy receiver
    let k ← evaluateBy key
    v.keyed env k
  | callScope name args => do
    let values ← evaluateAllBy args
    Action.answer name (← names.call name values)
  | callMember receiver name args => do
    let v ← evaluateBy receiver
    if v.isNull then return .null
    let values ← evaluateAllBy args
    Action.answer name (← v.callMethod env name values)
  | callFunction callee args => do
    match ← evaluateBy callee with
    | .function f => do env.call f (← evaluateAllBy args)
    | .null => return .null
    | _ => Action.fail (.notAFunction (callee.render (← Action.heap)))
  | binary .and left right => do
    if (← evaluateBy left).isTruthy then return .bool (← evaluateBy right).isTruthy
    else return .bool false
  | binary .or left right => do
    if (← evaluateBy left).isTruthy then return .bool true
    else return .bool (← evaluateBy right).isTruthy
  | binary op left right => do
    let l ← evaluateBy left
    let r ← evaluateBy right
    Action.ofExcept (op.apply (← Action.heap) l r)
  | not operand => do return (← evaluateBy operand).not
  | conditional condition yes no => do
    if (← evaluateBy condition).isTruthy then evaluateBy yes else evaluateBy no
  | assign target _ => do Action.fail (.notAssignable (target.render (← Action.heap)))
  | literal v => return v
  | str s => return .str s
  | array elements => do Value.ofItems (← evaluateAllBy elements)
  | object keys values => do Value.ofEntries keys (← evaluateAllBy values)
  | filter input name args =>
    match filters name with
    | none => Action.fail (.unknownFilter name)
    | some f => do
      let v ← evaluateBy input
      f (v :: (← evaluateAllBy args))
  | chain statements => evaluateChainBy .null statements

def evaluateAllBy : List Expr → Action W (List Value)
  | [] => return []
  | e :: rest => do
    let v ← evaluateBy e
    return v :: (← evaluateAllBy rest)

def evaluateChainBy (last : Value) : List Expr → Action W Value
  | [] => return last
  | e :: rest => do
    let v ← evaluateBy e
    evaluateChainBy (if v.isNull then last else v) rest

end

end

/-! ## the names of a scope -/

section
variable (env : Embedding W) (filters : FilterLookup W) (scope : Value)

theorem evaluateAllBy_names {es : List Expr}
    (h : ∀ e ∈ es, e.evaluateBy env filters (scope.names env) = e.evaluate env filters scope) :
    evaluateAllBy env filters (scope.names env) es = evaluateAll env filters scope es := by
  induction es with
  | nil => rw [evaluateAllBy, evaluateAll]
  | cons e es ih =>
    rw [evaluateAllBy, evaluateAll, h e (by simp), ih fun e' he' => h e' (by simp [he'])]

theorem evaluateChainBy_names {es : List Expr}
    (h : ∀ e ∈ es, e.evaluateBy env filters (scope.names env) = e.evaluate env filters scope)
    (last : Value) :
    evaluateChainBy env filters (scope.names env) last es =
      evaluateChain env filters scope last es := by
  induction es generalizing last with
  | nil => rw [evaluateChainBy, evaluateChain]
  | cons e es ih =>
    rw [evaluateChainBy, evaluateChain, h e (by simp)]
    congr 1
    funext v
    exact ih (fun e' he' => h e' (by simp [he'])) _

/-- A tree without assignments asks its scope for nothing else. -/
theorem evaluateBy_names {e : Expr} (he : ∀ target value, ¬ Within (assign target value) e) :
    e.evaluateBy env filters (scope.names env) = e.evaluate env filters scope := by
  induction e using parts_induction with
  | step e ih =>
    have ih : ∀ p ∈ e.parts,
        p.evaluateBy env filters (scope.names env) = p.evaluate env filters scope :=
      fun p hp => ih p hp fun target value h => he target value (.part hp h)
    cases e with
    | scope name =>
      rw [evaluateBy, evaluate]
      rfl
    | literal | str => rw [evaluateBy, evaluate]
    | assign target value => exact absurd (.self _) (he target value)
    | member receiver | not receiver =>
      rw [evaluateBy, evaluate, ih receiver (by simp [parts])]
    | keyed receiver key =>
      rw [evaluateBy, evaluate, ih receiver (by simp [parts]), ih key (by simp [parts])]
    | binary op left right =>
      have hl := ih left (by simp [parts])
      have hr := ih right (by simp [parts])
      by_cases hand : op = .and
      · rw [hand, evaluateBy, evaluate, hl, hr]
      · by_cases hor : op = .or
        · rw [hor, evaluateBy, evaluate, hl, hr]
        · rw [evaluateBy, evaluate, hl, hr]
          all_goals first | exact hand | exact hor
    | conditional condition yes no =>
      rw [evaluateBy, evaluate, ih condition (by simp [parts]), ih yes (by simp [parts]),
        ih no (by simp [parts])]
    | array es | object _ es =>
      have hall : evaluateAllBy env filters (scope.names env) es =
          evaluateAll env filters scope es := evaluateAllBy_names env filters scope ih
      rw [evaluateBy, evaluate, hall]
    | callScope _ args =>
      have hall : evaluateAllBy env filters (scope.names env) args =
          evaluateAll env filters scope args := evaluateAllBy_names env filters scope ih
      rw [evaluateBy, evaluate, hall]
      rfl
    | callMember receiver _ args =>
      rw [evaluateBy, evaluate, ih receiver (by simp [parts]),
        evaluateAllBy_names env filters scope fun a ha => ih a (by simp [parts, ha])]
      rfl
    | callFunction callee args =>
      rewrite [evaluateBy, evaluate, ih callee (by simp [parts]),
        evaluateAllBy_names env filters scope fun a ha => ih a (by simp [parts, ha])]
      rfl
    | filter input _ args =>
      rewrite [evaluateBy, evaluate, ih input (by simp [parts]),
        evaluateAllBy_names env filters scope fun a ha => ih a (by simp [parts, ha])]
      rfl
    | chain statements =>
      rw [evaluateBy, evaluate]
      exact evaluateChainBy_names env filters scope ih .null

end

end Expr

/-! ## names that answer alike -/

open Correspondence

variable {start : Heap} {c : Comparison W start}

theorem Correspondence.Reads.literalText_eq {ρ : Correspondence start} {h h' : Heap}
    (hh : ρ.Reads h h') {v : Value} (hv : ρ.Corresponds v v) :
    literalText h' v = literalText h v := by
  have htext := hh.text hv
  cases v with
  | float x =>
    unfold literalText
    dsimp only
    rw [htext]
  | _ => exact htext.symm

/-- What a tree asks of its scope is answered alike in two runs, now and later. -/
structure Comparison.Supplies (c : Comparison W start) (ρ : Correspondence start)
    (names names' : Names W) (e : Expr) : Prop where
  get : ∀ ρ', Le ρ ρ' → ∀ name, c.Relates ρ' Corresponds (names.get name) (names'.get name)
  call : ∀ ρ', Le ρ ρ' → ∀ name args, Expr.Within (.callScope name args) e →
    ∀ vs vs', ρ'.Values vs vs' → c.Relates ρ' Found (names.call name vs) (names'.call name vs')
  literal : ∀ v, Expr.Within (.literal v) e → ρ.Corresponds v v

namespace Comparison.Supplies

variable {ρ ρ' : Correspondence start} {names names' : Names W} {e : Expr}

theorem mono (h : c.Supplies ρ names names' e) (hle : Le ρ ρ') : c.Supplies ρ' names names' e where
  get ρ'' hle' := h.get ρ'' (hle.trans hle')
  call ρ'' hle' := h.call ρ'' (hle.trans hle')
  literal v hv := (h.literal v hv).mono hle

theorem part (h : c.Supplies ρ names names' e) {p : Expr} (hp : p ∈ e.parts) :
    c.Supplies ρ names names' p where
  get := h.get
  call ρ' hle name args hd := h.call ρ' hle name args (.part hp hd)
  literal v hd := h.literal v (.part hp hd)

/-- The tree is written in the same way in both runs. -/
theorem render_eq (h : c.Supplies ρ names names' e) {heap heap' : Heap}
    (hh : ρ.Reads heap heap') : e.render heap = e.render heap' :=
  (Expr.render_congr fun v hv => hh.literalText_eq (h.literal v hv)).symm

end Comparison.Supplies

namespace Expr

variable {env : Embedding W} {filters : FilterLookup W} {names names' : Names W}
  {ρ : Correspondence start}

/-- The evaluations of a tree go alike, now and later. -/
def Paired (c : Comparison W start) (ρ : Correspondence start) (env : Embedding W)
    (filters : FilterLookup W) (names names' : Names W) (e : Expr) : Prop :=
  ∀ ρ', Le ρ ρ' →
    c.Relates ρ' Corresponds (e.evaluateBy env filters names) (e.evaluateBy env filters names')

theorem Paired.mono {e : Expr} (h : e.Paired c ρ env filters names names') {ρ' : Correspondence start}
    (hle : Le ρ ρ') : e.Paired c ρ' env filters names names' :=
  fun ρ'' hle' => h ρ'' (hle.trans hle')

theorem relates_evaluateAllBy {es : List Expr}
    (hes : ∀ e ∈ es, e.Paired c ρ env filters names names') :
    c.Relates ρ Correspondence.Values (evaluateAllBy env filters names es)
      (evaluateAllBy env filters names' es) := by
  induction es generalizing ρ with
  | nil =>
    rw [evaluateAllBy, evaluateAllBy]
    exact .pure .nil
  | cons e es ih =>
    rw [evaluateAllBy, evaluateAllBy]
    refine .bind (hes e (by simp) ρ (.refl ρ)) fun ρ₁ hle v v' hv => ?_
    refine .bind (ih fun e' he' => (hes e' (by simp [he'])).mono hle) fun ρ₂ hle' vs vs' hvs => ?_
    exact .pure (.cons (hv.mono hle') hvs)

theorem relates_evaluateChainBy {es : List Expr}
    (hes : ∀ e ∈ es, e.Paired c ρ env filters names names') {last last' : Value}
    (hlast : ρ.Corresponds last last') :
    c.Relates ρ Corresponds (evaluateChainBy env filters names last es)
      (evaluateChainBy env filters names' last' es) := by
  induction es generalizing ρ last last' with
  | nil =>
    rw [evaluateChainBy, evaluateChainBy]
    exact .pure hlast
  | cons e es ih =>
    rw [evaluateChainBy, evaluateChainBy]
    refine .bind (hes e (by simp) ρ (.refl ρ)) fun ρ₁ hle v v' hv => ?_
    refine ih (fun e' he' => (hes e' (by simp [he'])).mono hle) ?_
    rw [isNull_eq hv]
    split
    · exact hlast.mono hle
    · exact hv

section
variable {left right : Expr} (hl : left.Paired c ρ env filters names names')
  (hr : right.Paired c ρ env filters names names')
include hl hr

theorem relates_and :
    c.Relates ρ Corresponds ((binary .and left right).evaluateBy env filters names)
      ((binary .and left right).evaluateBy env filters names') := by
  rw [evaluateBy, evaluateBy]
  refine .bind (hl ρ (.refl ρ)) fun ρ₁ hle l l' hl => ?_
  rw [isTruthy_eq hl]
  split
  · refine .bind (hr ρ₁ hle) fun ρ₂ _ r r' hr => ?_
    rw [isTruthy_eq hr]
    exact .pure (.bool _)
  · exact .pure (.bool _)

theorem relates_or :
    c.Relates ρ Corresponds ((binary .or left right).evaluateBy env filters names)
      ((binary .or left right).evaluateBy env filters names') := by
  rw [evaluateBy, evaluateBy]
  refine .bind (hl ρ (.refl ρ)) fun ρ₁ hle l l' hl => ?_
  rw [isTruthy_eq hl]
  split
  · exact .pure (.bool _)
  · refine .bind (hr ρ₁ hle) fun ρ₂ _ r r' hr => ?_
    rw [isTruthy_eq hr]
    exact .pure (.bool _)

theorem relates_operation (op : BinOp) (hand : op ≠ .and) (hor : op ≠ .or) :
    c.Relates ρ Corresponds ((binary op left right).evaluateBy env filters names)
      ((binary op left right).evaluateBy env filters names') := by
  rw [evaluateBy, evaluateBy]
  · refine .bind (hl ρ (.refl ρ)) fun ρ₁ hle l l' hl => ?_
    refine .bind (hr ρ₁ hle) fun ρ₂ hle' r r' hr => ?_
    exact .heap_bind fun h h' hh => .ofExcept (answers_apply (hl.mono hle') hr hh op)
  all_goals first | exact hand | exact hor

end

theorem relates_conditional {condition yes no : Expr}
    (hcondition : condition.Paired c ρ env filters names names')
    (hyes : yes.Paired c ρ env filters names names')
    (hno : no.Paired c ρ env filters names names') :
    c.Relates ρ Corresponds ((conditional condition yes no).evaluateBy env filters names)
      ((conditional condition yes no).evaluateBy env filters names') := by
  rw [evaluateBy, evaluateBy]
  refine .bind (hcondition ρ (.refl ρ)) fun ρ₁ hle v v' hv => ?_
  rw [isTruthy_eq hv]
  split
  · exact hyes ρ₁ hle
  · exact hno ρ₁ hle

section
variable {receiver : Expr} {args : List Expr}
  (hreceiver : receiver.Paired c ρ env filters names names')
  (hargs : ∀ a ∈ args, a.Paired c ρ env filters names names')
include hreceiver hargs

theorem relates_callMember (respects : c.Respects env) (name : String) :
    c.Relates ρ Corresponds ((callMember receiver name args).evaluateBy env filters names)
      ((callMember receiver name args).evaluateBy env filters names') := by
  rw [evaluateBy, evaluateBy]
  refine .bind (hreceiver ρ (.refl ρ)) fun ρ₁ hle v v' hv => ?_
  rw [isNull_eq hv]
  split
  · exact .pure .null
  · refine .bind (relates_evaluateAllBy fun a ha => (hargs a ha).mono hle)
      fun ρ₂ hle' vs vs' hvs => ?_
    exact .bind (Value.relates_callMethod respects (hv.mono hle') name hvs)
      fun ρ₃ _ a a' ha => .answer name ha

theorem relates_filter (respectsFilters : c.RespectsFilters filters) (name : String) :
    c.Relates ρ Corresponds ((filter receiver name args).evaluateBy env filters names)
      ((filter receiver name args).evaluateBy env filters names') := by
  rw [evaluateBy, evaluateBy]
  cases hrun : filters name with
  | none => exact .fail _
  | some run =>
    refine .bind (hreceiver ρ (.refl ρ)) fun ρ₁ hle v v' hv => ?_
    refine .bind (relates_evaluateAllBy fun a ha => (hargs a ha).mono hle)
      fun ρ₂ hle' vs vs' hvs => ?_
    exact respectsFilters name run hrun ρ₂ _ _ (.cons (hv.mono hle') hvs)

end

/-- A function is called, null gives null, and anything else is named in the error. -/
theorem relates_callFunction (respects : c.Respects env) {callee : Expr} {args : List Expr}
    (hcallee : callee.Paired c ρ env filters names names')
    (hargs : ∀ a ∈ args, a.Paired c ρ env filters names names')
    (hrender : ∀ ρ', Le ρ ρ' → ∀ h h', ρ'.Reads h h' → callee.render h = callee.render h') :
    c.Relates ρ Corresponds ((callFunction callee args).evaluateBy env filters names)
      ((callFunction callee args).evaluateBy env filters names') := by
  rw [evaluateBy, evaluateBy]
  refine .bind (hcallee ρ (.refl ρ)) fun ρ₁ hle v v' hv => ?_
  cases hv with
  | function f =>
    refine .bind (relates_evaluateAllBy fun a ha => (hargs a ha).mono hle) fun ρ₂ _ vs vs' hvs => ?_
    exact respects.call ρ₂ f vs vs' hvs
  | null => exact .pure .null
  | _ =>
    refine .heap_bind fun h h' hh => ?_
    rw [hrender ρ₁ hle h h' hh]
    exact .fail _

/-- Where the names answer alike in two runs, the evaluations of a tree go alike. -/
theorem relates_evaluateBy (respects : c.Respects env) (respectsFilters : c.RespectsFilters filters)
    {e : Expr} (supplies : c.Supplies ρ names names' e) :
    c.Relates ρ Corresponds (e.evaluateBy env filters names)
      (e.evaluateBy env filters names') := by
  induction e using parts_induction generalizing ρ with
  | step e ih =>
    have ih : ∀ p ∈ e.parts, p.Paired c ρ env filters names names' :=
      fun p hp ρ' hle => ih p hp ((supplies.part hp).mono hle)
    cases e with
    | scope name =>
      rw [evaluateBy, evaluateBy]
      exact supplies.get ρ (.refl ρ) name
    | literal v =>
      rw [evaluateBy, evaluateBy]
      exact .pure (supplies.literal v (.self _))
    | str s =>
      rw [evaluateBy, evaluateBy]
      exact .pure (.str s)
    | assign target value =>
      rw [evaluateBy, evaluateBy]
      refine .heap_bind fun h h' hh => ?_
      rw [(supplies.part (by simp [parts])).render_eq hh]
      exact .fail _
    | member receiver name =>
      rw [evaluateBy, evaluateBy]
      exact .bind (ih receiver (by simp [parts]) ρ (.refl ρ)) fun ρ₁ _ v v' hv =>
        Value.relates_get respects hv name
    | not operand =>
      rw [evaluateBy, evaluateBy]
      refine .bind (ih operand (by simp [parts]) ρ (.refl ρ)) fun ρ₁ _ v v' hv => ?_
      rw [Value.not, Value.not, isTruthy_eq hv]
      exact .pure (.bool _)
    | keyed receiver key =>
      rw [evaluateBy, evaluateBy]
      refine .bind (ih receiver (by simp [parts]) ρ (.refl ρ)) fun ρ₁ hle v v' hv => ?_
      exact .bind (ih key (by simp [parts]) ρ₁ hle) fun ρ₂ hle' k k' hk =>
        Value.relates_keyed respects (hv.mono hle') hk
    | binary op left right =>
      have hl := ih left (by simp [parts])
      have hr := ih right (by simp [parts])
      by_cases hand : op = .and
      · rw [hand]
        exact relates_and hl hr
      · by_cases hor : op = .or
        · rw [hor]
          exact relates_or hl hr
        · exact relates_operation hl hr op hand hor
    | conditional condition yes no =>
      exact relates_conditional (ih condition (by simp [parts])) (ih yes (by simp [parts]))
        (ih no (by simp [parts]))
    | callScope name args =>
      rw [evaluateBy, evaluateBy]
      refine .bind (relates_evaluateAllBy ih) fun ρ₁ hle vs vs' hvs => ?_
      exact .bind (supplies.call ρ₁ hle name args (.self _) vs vs' hvs) fun ρ₂ _ a a' ha =>
        .answer name ha
    | callMember receiver name args =>
      exact relates_callMember (ih receiver (by simp [parts]))
        (fun a ha => ih a (by simp [parts, ha])) respects name
    | callFunction callee args =>
      have hcallee : callee ∈ (callFunction callee args).parts := by simp [parts]
      exact relates_callFunction respects (ih callee hcallee)
        (fun a ha => ih a (by simp [parts, ha]))
        fun ρ' hle h h' hh => ((supplies.part hcallee).mono hle).render_eq hh
    | array elements =>
      rw [evaluateBy, evaluateBy]
      exact .bind (relates_evaluateAllBy ih) fun ρ₁ _ vs vs' hvs => .newArray hvs
    | object keys values =>
      rw [evaluateBy, evaluateBy]
      exact .bind (relates_evaluateAllBy ih) fun ρ₁ _ vs vs' hvs =>
        .newObject (pairs_ofPairs keys hvs)
    | filter input name args =>
      exact relates_filter (ih input (by simp [parts])) (fun a ha => ih a (by simp [parts, ha]))
        respectsFilters name
    | chain statements =>
      rw [evaluateBy, evaluateBy]
      exact relates_evaluateChainBy ih .null

/-- Evaluations of a tree without assignments go alike in corresponding scopes. -/
theorem relates_evaluate (respects : c.Respects env) (respectsFilters : c.RespectsFilters filters)
    {scope scope' : Value} (hscope : ρ.Corresponds scope scope') {e : Expr}
    (hliterals : ∀ v, Within (literal v) e → ρ.Corresponds v v)
    (he : ∀ target value, ¬ Within (assign target value) e) :
    c.Relates ρ Corresponds (e.evaluate env filters scope) (e.evaluate env filters scope') := by
  rw [← evaluateBy_names env filters scope he, ← evaluateBy_names env filters scope' he]
  refine relates_evaluateBy respects respectsFilters ⟨fun ρ' hle name => ?_, ?_, hliterals⟩
  · exact Value.relates_get respects (hscope.mono hle) name
  · intro ρ' hle name args _ vs vs' hvs
    exact Value.relates_callMethod respects (hscope.mono hle) name hvs

end Expr

end TemplateExpr
