import TemplateExpr.Expr.Evaluate
import TemplateExpr.Proofs.Action
import TemplateExpr.Proofs.Expr.Parts

/-!
# Evaluation that skips nothing

* `Expr.isLazy`            the nodes that evaluate only what they need;
* `Expr.evaluateEagerly`   evaluation where every operand of such a node is evaluated;
* `Expr.evaluateEagerly_eq`   the two agree on trees without such nodes.
-/

namespace TemplateExpr

namespace Expr

def isLazy : Expr → Bool
  | binary .and .. | binary .or .. | conditional .. => true
  | _ => false

variable {W : Type} (env : Embedding W) (filters : FilterLookup W) (scope : Value)

mutual

/-- The value of a tree, with the operands of `&&`, `||` and conditionals all evaluated. Calls of
function values, assignments and chains are evaluated as ever. -/
def evaluateEagerly : Expr → Action W Value
  | .scope name => scope.get env name
  | member receiver name => do (← evaluateEagerly receiver).get env name
  | keyed receiver key => do
    let v ← evaluateEagerly receiver
    let k ← evaluateEagerly key
    v.keyed env k
  | callScope name args => do
    let values ← evaluateAllEagerly args
    Action.answer name (← scope.callMethod env name values)
  | callMember receiver name args => do
    let v ← evaluateEagerly receiver
    if v.isNull then return .null
    let values ← evaluateAllEagerly args
    Action.answer name (← v.callMethod env name values)
  | binary op left right => do
    let l ← evaluateEagerly left
    let r ← evaluateEagerly right
    Action.ofExcept (op.apply (← Action.heap) l r)
  | not operand => do return (← evaluateEagerly operand).not
  | conditional condition yes no => do
    let c ← evaluateEagerly condition
    let y ← evaluateEagerly yes
    let n ← evaluateEagerly no
    return Value.select c y n
  | literal v => return v
  | str s => return .str s
  | array elements => do Value.ofItems (← evaluateAllEagerly elements)
  | object keys values => do Value.ofEntries keys (← evaluateAllEagerly values)
  | filter input name args =>
    match filters name with
    | none => Action.fail (.unknownFilter name)
    | some f => do
      let v ← evaluateEagerly input
      f (v :: (← evaluateAllEagerly args))
  | callFunction callee args => (callFunction callee args).evaluate env filters scope
  | assign target value => (assign target value).evaluate env filters scope
  | chain statements => (chain statements).evaluate env filters scope

def evaluateAllEagerly : List Expr → Action W (List Value)
  | [] => return []
  | e :: rest => do
    let v ← evaluateEagerly e
    return v :: (← evaluateAllEagerly rest)

end

theorem evaluateAllEagerly_eq {es : List Expr}
    (h : ∀ e ∈ es, e.evaluateEagerly env filters scope = e.evaluate env filters scope) :
    evaluateAllEagerly env filters scope es = evaluateAll env filters scope es := by
  induction es with
  | nil => rw [evaluateAllEagerly, evaluateAll]
  | cons e es ih =>
    rw [evaluateAllEagerly, evaluateAll, h e (by simp), ih fun e' he' => h e' (by simp [he'])]

/-- Where no node is lazy, evaluating everything is evaluating. -/
theorem evaluateEagerly_eq {e : Expr} (h : ∀ d, Within d e → d.isLazy = false) :
    e.evaluateEagerly env filters scope = e.evaluate env filters scope := by
  induction e using parts_induction with
  | step e ih =>
    obtain ⟨hself, hparts⟩ := forall_within_iff.mp h
    have ih : ∀ p ∈ e.parts,
        p.evaluateEagerly env filters scope = p.evaluate env filters scope :=
      fun p hp => ih p hp (hparts p hp)
    cases e with
    | scope | literal | str => rw [evaluateEagerly, evaluate]
    | callFunction | assign | chain => rw [evaluateEagerly]
    | member receiver | not receiver =>
      rw [evaluateEagerly, evaluate, ih receiver (by simp [parts])]
    | keyed receiver key =>
      rw [evaluateEagerly, evaluate, ih receiver (by simp [parts]), ih key (by simp [parts])]
    | binary op left right =>
      rw [evaluateEagerly, evaluate, ih left (by simp [parts]), ih right (by simp [parts])]
      · rintro rfl
        simp [isLazy] at hself
      · rintro rfl
        simp [isLazy] at hself
    | conditional => simp [isLazy] at hself
    | array es | object _ es =>
      have hall : evaluateAllEagerly env filters scope es = evaluateAll env filters scope es :=
        evaluateAllEagerly_eq env filters scope ih
      rw [evaluateEagerly, evaluate, hall]
    | callScope _ args =>
      have hall : evaluateAllEagerly env filters scope args = evaluateAll env filters scope args :=
        evaluateAllEagerly_eq env filters scope ih
      rw [evaluateEagerly, evaluate, hall]
      rfl
    | callMember receiver _ args =>
      rw [evaluateEagerly, evaluate, ih receiver (by simp [parts]),
        evaluateAllEagerly_eq env filters scope fun a ha => ih a (by simp [parts, ha])]
      rfl
    | filter input _ args =>
      rewrite [evaluateEagerly, evaluate, ih input (by simp [parts]),
        evaluateAllEagerly_eq env filters scope fun a ha => ih a (by simp [parts, ha])]
      rfl

end Expr

end TemplateExpr
