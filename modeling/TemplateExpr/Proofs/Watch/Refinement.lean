import TemplateExpr.Proofs.Expr.Formed
import TemplateExpr.Proofs.Heap.Refinement
import TemplateExpr.Proofs.Watch.Agreement

/-!
# Eager reading refines lazy evaluating

A watch tree reads all operands of `&&`, `||` and conditionals, and evaluating skips some. Where the
functions of the embedding program are steady, what is skipped only adds to the heap.

* `Expr.Watched`                       the nodes that a watch tree has;
* `Expr.keeps_evaluateEagerly`         evaluating everything keeps the heap;
* `Expr.refines_evaluate`              it succeeds only where evaluating does, with what corresponds;
* `WatchBuilder.evaluate_of_read_build`    so does reading a fresh watch tree.
-/

namespace TemplateExpr

/-! ## the nodes of watched trees -/

namespace Expr

/-- A node of a tree that is watched: no call of a function value, no assignment and no chain, and
literals are those of texts. -/
def Watched : Expr → Prop
  | callFunction .. | assign .. | chain _ => False
  | literal v => v.IsLiteral
  | _ => True

end Expr

namespace Watch

variable {W : Type} (h : Heap) (filters : FilterLookup W) (root : Watch W)

/-- The expression has a watch tree. -/
def Accepts (e : Expr) : Prop := ∃ m w m', ofExpr h filters root e m = .ok w m'

variable {h filters root}

theorem accepts_of_ofExprs {es : List Expr} {m m' : Memos} {ws : List (Watch W)}
    (hb : ofExprs h filters root es m = .ok ws m') : ∀ e ∈ es, Accepts h filters root e := by
  induction es generalizing m ws m' with
  | nil => simp
  | cons e es ih =>
    rw [ofExprs] at hb
    obtain ⟨w, m₁, hw, hb⟩ := bind_eq_ok hb
    obtain ⟨ws', m₂, hws, _⟩ := bind_eq_ok hb
    exact List.forall_mem_cons.mpr ⟨⟨m, w, m₁, hw⟩, ih hws⟩

/-- The parts of an expression are built on the way. -/
theorem Accepts.part {e p : Expr} (he : Accepts h filters root e) (hp : p ∈ e.parts) :
    Accepts h filters root p := by
  obtain ⟨m, w, m', hb⟩ := he
  cases e with
  | scope | literal | str => simp [Expr.parts] at hp
  | callFunction | assign | chain =>
    rw [ofExpr] at hb
    simp [refuse] at hb
  | member e | not e =>
    rw [ofExpr] at hb
    obtain ⟨w₁, m₁, h₁, _⟩ := bind_eq_ok hb
    simp only [Expr.parts, List.mem_singleton] at hp
    exact hp ▸ ⟨_, _, _, h₁⟩
  | keyed a b | binary _ a b =>
    rw [ofExpr] at hb
    obtain ⟨w₁, m₁, h₁, hb⟩ := bind_eq_ok hb
    obtain ⟨w₂, m₂, h₂, _⟩ := bind_eq_ok hb
    simp only [Expr.parts, List.mem_cons, List.not_mem_nil, or_false] at hp
    rcases hp with rfl | rfl
    · exact ⟨_, _, _, h₁⟩
    · exact ⟨_, _, _, h₂⟩
  | conditional a b c =>
    rw [ofExpr] at hb
    obtain ⟨w₁, m₁, h₁, hb⟩ := bind_eq_ok hb
    obtain ⟨w₂, m₂, h₂, hb⟩ := bind_eq_ok hb
    obtain ⟨w₃, m₃, h₃, _⟩ := bind_eq_ok hb
    simp only [Expr.parts, List.mem_cons, List.not_mem_nil, or_false] at hp
    rcases hp with rfl | rfl | rfl
    · exact ⟨_, _, _, h₁⟩
    · exact ⟨_, _, _, h₂⟩
    · exact ⟨_, _, _, h₃⟩
  | callScope | array | object =>
    rw [ofExpr] at hb
    obtain ⟨ws, m₁, hws, _⟩ := bind_eq_ok hb
    exact accepts_of_ofExprs hws p hp
  | callMember e _ args =>
    rw [ofExpr] at hb
    obtain ⟨w₁, m₁, h₁, hb⟩ := bind_eq_ok hb
    obtain ⟨ws, m₂, hws, _⟩ := bind_eq_ok hb
    rcases List.mem_cons.mp hp with rfl | hp
    · exact ⟨_, _, _, h₁⟩
    · exact accepts_of_ofExprs hws p hp
  | filter e name args =>
    rw [ofExpr] at hb
    cases hf : filters name with
    | none => rw [hf] at hb; simp [refuse] at hb
    | some run =>
      simp only [hf] at hb
      obtain ⟨w₁, m₁, h₁, hb⟩ := bind_eq_ok hb
      obtain ⟨ws, m₂, hws, _⟩ := bind_eq_ok hb
      rcases List.mem_cons.mp hp with rfl | hp
      · exact ⟨_, _, _, h₁⟩
      · exact accepts_of_ofExprs hws p hp

theorem Accepts.within {d e : Expr} (hd : Expr.Within d e) (he : Accepts h filters root e) :
    Accepts h filters root d := by
  induction hd with
  | self => exact he
  | part hp _ ih => exact ih (he.part hp)

/-- Every node of a program that has a watch tree is watched. -/
theorem watched_of_accepts {e : Expr} (he : Accepts h filters root e) (hf : e.FormedProgram)
    (d : Expr) (hd : Expr.Within d e) : d.Watched := by
  have hstatement : e.FormedStatement := by
    cases hf with
    | statement he => exact he
    | chain =>
      obtain ⟨m, w, m', hb⟩ := he
      rw [ofExpr] at hb
      simp [refuse] at hb
  have hformed := hstatement.within hd
  obtain ⟨m, w, m', hb⟩ := he.within hd
  cases d with
  | callFunction | assign | chain =>
    rw [ofExpr] at hb
    simp [refuse] at hb
  | literal v =>
    cases hformed with
    | plain hformed =>
      cases hformed with
      | literal hv => exact hv
  | _ => trivial

end Watch

/-! ## evaluating everything keeps the heap -/

namespace Expr

variable {W : Type} {start : Heap} {env : Embedding W} {filters : FilterLookup W} {scope : Value}

theorem keeps_answer (name : String) (v : Option Value) :
    Keeps (Action.answer name v : Action W Value) := by
  cases v with
  | some v => exact .pure v
  | none => exact .fail _

theorem keeps_evaluateAllEagerly {es : List Expr}
    (ih : ∀ e ∈ es, Keeps (e.evaluateEagerly env filters scope)) :
    Keeps (evaluateAllEagerly env filters scope es) := by
  induction es with
  | nil =>
    rw [evaluateAllEagerly]
    exact .pure _
  | cons e es ihes =>
    rw [evaluateAllEagerly]
    refine .bind (ih e (by simp)) fun _ => ?_
    exact .bind (ihes fun e he => ih e (by simp [he])) fun _ => .pure _

theorem keeps_evaluateEagerly (quiet : env.Quiet start) (quietFilters : filters.Quiet start)
    {e : Expr} (he : ∀ d, Within d e → d.Watched) :
    Keeps (e.evaluateEagerly env filters scope) := by
  induction e using parts_induction with
  | step e ih =>
    obtain ⟨hself, hparts⟩ := forall_within_iff.mp he
    have ih : ∀ p ∈ e.parts, Keeps (p.evaluateEagerly env filters scope) :=
      fun p hp => ih p hp (hparts p hp)
    cases e with
    | callFunction | assign | chain => exact absurd hself id
    | scope name =>
      rw [evaluateEagerly]
      exact Value.keeps_get quiet scope name
    | literal | str =>
      rw [evaluateEagerly]
      exact .pure _
    | member receiver name =>
      rw [evaluateEagerly]
      exact .bind (ih receiver (by simp [parts])) fun v => Value.keeps_get quiet v name
    | not operand =>
      rw [evaluateEagerly]
      exact .bind (ih operand (by simp [parts])) fun _ => .pure _
    | keyed receiver key =>
      rw [evaluateEagerly]
      refine .bind (ih receiver (by simp [parts])) fun v => ?_
      exact .bind (ih key (by simp [parts])) fun k => Value.keeps_keyed quiet v k
    | binary op left right =>
      rw [evaluateEagerly]
      refine .bind (ih left (by simp [parts])) fun _ => ?_
      refine .bind (ih right (by simp [parts])) fun _ => ?_
      exact .bind .heap fun _ => .ofExcept _
    | conditional condition yes no =>
      rw [evaluateEagerly]
      refine .bind (ih condition (by simp [parts])) fun _ => ?_
      refine .bind (ih yes (by simp [parts])) fun _ => ?_
      exact .bind (ih no (by simp [parts])) fun _ => .pure _
    | callScope name args =>
      rw [evaluateEagerly]
      refine .bind (keeps_evaluateAllEagerly fun a ha => ih a ha) fun values => ?_
      exact .bind (Value.keeps_callMethod quiet scope name values) fun _ => keeps_answer name _
    | callMember receiver name args =>
      rw [evaluateEagerly]
      refine .bind (ih receiver (by simp [parts])) fun v => ?_
      split
      · exact .pure _
      · refine .bind (keeps_evaluateAllEagerly fun a ha => ih a (by simp [parts, ha])) fun values => ?_
        exact .bind (Value.keeps_callMethod quiet v name values) fun _ => keeps_answer name _
    | array elements =>
      rw [evaluateEagerly]
      exact .bind (keeps_evaluateAllEagerly fun a ha => ih a ha) fun _ => .newArray _
    | object keys values =>
      rw [evaluateEagerly]
      exact .bind (keeps_evaluateAllEagerly fun a ha => ih a ha) fun _ => .newObject _
    | filter input name args =>
      rw [evaluateEagerly]
      cases hf : filters name with
      | none => exact .fail _
      | some run =>
        refine .bind (ih input (by simp [parts])) fun _ => ?_
        refine .bind (keeps_evaluateAllEagerly fun a ha => ih a (by simp [parts, ha])) fun _ => ?_
        exact (quietFilters name run hf).keeps _

/-! ## lazy evaluating succeeds too -/

open Correspondence

theorem refines_answer {ρ : Correspondence start} (name : String) {v v' : Option Value}
    (hv : ρ.Found v v') :
    ρ.Refines (W := W) Corresponds (Action.answer name v) (Action.answer name v') :=
  refines_iff.mpr (.answer name hv)

theorem corresponds_literal {ρ : Correspondence start} {v : Value} (hv : v.IsLiteral) :
    ρ.Corresponds v v := by
  cases hv with
  | null => exact .null
  | bool b => exact .bool b
  | number => exact corresponds_ofNumber _

theorem refines_evaluateAll {es : List Expr}
    (ih : ∀ e ∈ es, ∀ ρ : Correspondence start, ρ.Refines Corresponds
      (e.evaluateEagerly env filters scope) (e.evaluate env filters scope))
    (ρ : Correspondence start) :
    ρ.Refines Values (evaluateAllEagerly env filters scope es)
      (evaluateAll env filters scope es) := by
  induction es generalizing ρ with
  | nil =>
    rw [evaluateAllEagerly, evaluateAll]
    exact .pure .nil
  | cons e es ihes =>
    rw [evaluateAllEagerly, evaluateAll]
    refine .bind (ih e (by simp) ρ) fun ρ₁ _ v v' hv => ?_
    refine .bind (ihes (fun e he => ih e (by simp [he])) ρ₁) fun ρ₂ hle vs vs' hvs => ?_
    exact .pure (.cons (hv.mono hle) hvs)

section
variable {left right : Expr} {ρ : Correspondence start}
  (hl : ρ.Refines Corresponds (left.evaluateEagerly env filters scope)
    (left.evaluate env filters scope))
  (hr : ∀ ρ : Correspondence start, ρ.Refines Corresponds
    (right.evaluateEagerly env filters scope) (right.evaluate env filters scope))
include hl hr

/-- The right operand is skipped if the left one is false. -/
theorem refines_and (hkeeps : Keeps (right.evaluateEagerly env filters scope)) :
    ρ.Refines Corresponds ((binary .and left right).evaluateEagerly env filters scope)
      ((binary .and left right).evaluate env filters scope) := by
  rw [evaluateEagerly, evaluate]
  refine .bind hl fun ρ₁ _ l l' hl => ?_
  rw [← isTruthy_eq hl]
  cases htruthy : l.isTruthy with
  | true =>
    refine .bind (hr ρ₁) fun ρ₂ _ r r' hr => .skip .heap fun h => ?_
    rw [BinOp.apply, htruthy, Bool.true_and, isTruthy_eq hr]
    exact .pure (.bool _)
  | false =>
    refine .skip hkeeps fun r => .skip .heap fun h => ?_
    rw [BinOp.apply, htruthy, Bool.false_and]
    exact .pure (.bool _)

theorem refines_or (hkeeps : Keeps (right.evaluateEagerly env filters scope)) :
    ρ.Refines Corresponds ((binary .or left right).evaluateEagerly env filters scope)
      ((binary .or left right).evaluate env filters scope) := by
  rw [evaluateEagerly, evaluate]
  refine .bind hl fun ρ₁ _ l l' hl => ?_
  rw [← isTruthy_eq hl]
  cases htruthy : l.isTruthy with
  | true =>
    refine .skip hkeeps fun r => .skip .heap fun h => ?_
    rw [BinOp.apply, htruthy, Bool.true_or]
    exact .pure (.bool _)
  | false =>
    refine .bind (hr ρ₁) fun ρ₂ _ r r' hr => .skip .heap fun h => ?_
    rw [BinOp.apply, htruthy, Bool.false_or, isTruthy_eq hr]
    exact .pure (.bool _)

theorem refines_operation (op : BinOp) (hand : op ≠ .and) (hor : op ≠ .or) :
    ρ.Refines Corresponds ((binary op left right).evaluateEagerly env filters scope)
      ((binary op left right).evaluate env filters scope) := by
  rw [evaluateEagerly, evaluate]
  · refine .bind hl fun ρ₁ _ l l' hl => ?_
    refine .bind (hr ρ₁) fun ρ₂ hle r r' hr => ?_
    exact .heap_bind fun h h' hh => .ofExcept (computes_apply (hl.mono hle) hr hh op)
  · exact hand
  · exact hor

end

/-- One branch of a conditional is skipped. -/
theorem refines_conditional {condition yes no : Expr} {ρ : Correspondence start}
    (hc : ρ.Refines Corresponds (condition.evaluateEagerly env filters scope)
      (condition.evaluate env filters scope))
    (hy : ∀ ρ : Correspondence start, ρ.Refines Corresponds
      (yes.evaluateEagerly env filters scope) (yes.evaluate env filters scope))
    (hn : ∀ ρ : Correspondence start, ρ.Refines Corresponds
      (no.evaluateEagerly env filters scope) (no.evaluate env filters scope))
    (hkeepsYes : Keeps (yes.evaluateEagerly env filters scope))
    (hkeepsNo : Keeps (no.evaluateEagerly env filters scope)) :
    ρ.Refines Corresponds ((conditional condition yes no).evaluateEagerly env filters scope)
      ((conditional condition yes no).evaluate env filters scope) := by
  rw [evaluateEagerly, evaluate]
  refine .bind hc fun ρ₁ _ c c' hc => ?_
  rw [← isTruthy_eq hc]
  cases htruthy : c.isTruthy with
  | true =>
    rw [if_pos rfl, ← bind_pure (yes.evaluate env filters scope)]
    refine .bind (hy ρ₁) fun ρ₂ _ y y' hy => .skip hkeepsNo fun n => ?_
    rw [Value.select, htruthy, if_pos rfl]
    exact .pure hy
  | false =>
    rw [if_neg (by decide), ← bind_pure (no.evaluate env filters scope)]
    refine .skip hkeepsYes fun y => ?_
    refine .bind (hn ρ₁) fun ρ₂ _ n n' hn => ?_
    rw [Value.select, htruthy, if_neg (by decide)]
    exact .pure hn

section
variable {args : List Expr}
  (ha : ∀ a ∈ args, ∀ ρ : Correspondence start, ρ.Refines Corresponds
    (a.evaluateEagerly env filters scope) (a.evaluate env filters scope))
include ha

theorem refines_callScope (quiet : env.Quiet start) (hscope : start.Has scope)
    (ρ : Correspondence start) (name : String) :
    ρ.Refines Corresponds ((callScope name args).evaluateEagerly env filters scope)
      ((callScope name args).evaluate env filters scope) := by
  have hlazy : (callScope name args).evaluate env filters scope = (do
      let values ← evaluateAll env filters scope args
      Action.answer name (← scope.callMethod env name values)) := by
    rw [evaluate]
    rfl
  rw [evaluateEagerly, hlazy]
  refine .bind (refines_evaluateAll ha ρ) fun ρ₁ _ vs vs' hvs => ?_
  exact .bind (Value.refines_callMethod quiet (corresponds_self hscope) name hvs)
    fun ρ₂ _ a a' ha => refines_answer name ha

variable {receiver : Expr} {ρ : Correspondence start}
  (hr : ρ.Refines Corresponds (receiver.evaluateEagerly env filters scope)
    (receiver.evaluate env filters scope))
include hr

theorem refines_callMember (quiet : env.Quiet start) (name : String) :
    ρ.Refines Corresponds ((callMember receiver name args).evaluateEagerly env filters scope)
      ((callMember receiver name args).evaluate env filters scope) := by
  have hlazy : (callMember receiver name args).evaluate env filters scope = (do
      let v ← receiver.evaluate env filters scope
      if v.isNull then return .null
      let values ← evaluateAll env filters scope args
      Action.answer name (← v.callMethod env name values)) := by
    rw [evaluate]
    rfl
  rw [evaluateEagerly, hlazy]
  refine .bind hr fun ρ₁ _ v v' hv => ?_
  rw [isNull_eq hv]
  split
  · exact .pure .null
  · refine .bind (refines_evaluateAll ha ρ₁) fun ρ₂ hle vs vs' hvs => ?_
    exact .bind (Value.refines_callMethod quiet (hv.mono hle) name hvs)
      fun ρ₃ _ a a' ha => refines_answer name ha

theorem refines_filter (quietFilters : filters.Quiet start) (name : String) :
    ρ.Refines Corresponds ((filter receiver name args).evaluateEagerly env filters scope)
      ((filter receiver name args).evaluate env filters scope) := by
  rw [evaluateEagerly, evaluate]
  cases hf : filters name with
  | none => exact .fail _ _
  | some run =>
    refine .bind hr fun ρ₁ _ v v' hv => ?_
    refine .bind (refines_evaluateAll ha ρ₁) fun ρ₂ hle vs vs' hvs => ?_
    exact (quietFilters name run hf).answers ρ₂ _ _ (.cons (hv.mono hle) hvs)

end

/-- Where evaluating everything succeeds, evaluating does, and the values correspond. -/
theorem refines_evaluate (quiet : env.Quiet start) (quietFilters : filters.Quiet start)
    (hscope : start.Has scope) {e : Expr} (he : ∀ d, Within d e → d.Watched)
    (ρ : Correspondence start) :
    ρ.Refines Corresponds (e.evaluateEagerly env filters scope)
      (e.evaluate env filters scope) := by
  induction e using parts_induction generalizing ρ with
  | step e ih =>
    obtain ⟨hself, hparts⟩ := forall_within_iff.mp he
    have hkeeps : ∀ p ∈ e.parts, Keeps (p.evaluateEagerly env filters scope) :=
      fun p hp => keeps_evaluateEagerly quiet quietFilters (hparts p hp)
    have ih : ∀ p ∈ e.parts, ∀ ρ : Correspondence start, ρ.Refines Corresponds
        (p.evaluateEagerly env filters scope) (p.evaluate env filters scope) :=
      fun p hp => ih p hp (hparts p hp)
    cases e with
    | callFunction | assign | chain => exact absurd hself id
    | scope name =>
      rw [evaluateEagerly, evaluate]
      exact Value.refines_get quiet (corresponds_self hscope) name
    | literal v =>
      rw [evaluateEagerly, evaluate]
      exact .pure (corresponds_literal hself)
    | str s =>
      rw [evaluateEagerly, evaluate]
      exact .pure (.str s)
    | member receiver name =>
      rw [evaluateEagerly, evaluate]
      exact .bind (ih receiver (by simp [parts]) ρ) fun ρ₁ _ v v' hv =>
        Value.refines_get quiet hv name
    | not operand =>
      rw [evaluateEagerly, evaluate]
      refine .bind (ih operand (by simp [parts]) ρ) fun ρ₁ _ v v' hv => ?_
      rw [Value.not, Value.not, isTruthy_eq hv]
      exact .pure (.bool _)
    | keyed receiver key =>
      rw [evaluateEagerly, evaluate]
      refine .bind (ih receiver (by simp [parts]) ρ) fun ρ₁ _ v v' hv => ?_
      exact .bind (ih key (by simp [parts]) ρ₁) fun ρ₂ hle k k' hk =>
        Value.refines_keyed quiet (hv.mono hle) hk
    | binary op left right =>
      have hl := ih left (by simp [parts]) ρ
      have hr := ih right (by simp [parts])
      have hskip := hkeeps right (by simp [parts])
      by_cases hand : op = .and
      · rw [hand]
        exact refines_and hl hr hskip
      · by_cases hor : op = .or
        · rw [hor]
          exact refines_or hl hr hskip
        · exact refines_operation hl hr op hand hor
    | conditional condition yes no =>
      exact refines_conditional (ih condition (by simp [parts]) ρ) (ih yes (by simp [parts]))
        (ih no (by simp [parts])) (hkeeps yes (by simp [parts])) (hkeeps no (by simp [parts]))
    | callScope name args => exact refines_callScope ih quiet hscope ρ name
    | callMember receiver name args =>
      exact refines_callMember (fun a ha => ih a (by simp [parts, ha]))
        (ih receiver (by simp [parts]) ρ) quiet name
    | array elements =>
      rw [evaluateEagerly, evaluate]
      exact .bind (refines_evaluateAll (fun a ha => ih a ha) ρ) fun ρ₁ _ vs vs' hvs =>
        .newArray hvs
    | object keys values =>
      rw [evaluateEagerly, evaluate]
      exact .bind (refines_evaluateAll (fun a ha => ih a ha) ρ) fun ρ₁ _ vs vs' hvs =>
        .newObject (pairs_ofPairs keys hvs)
    | filter input name args =>
      exact refines_filter (fun a ha => ih a (by simp [parts, ha])) (ih input (by simp [parts]) ρ)
        quietFilters name

end Expr

/-! ## reading watch trees -/

namespace WatchBuilder

open Correspondence

variable {W : Type} {h : Heap} {filters : FilterLookup W} {source : String} {asCollection : Bool}
  {context : Option Value} {b b' : WatchBuilder} {tree : Watch W}

/-- Where a fresh watch tree is read successfully, evaluating its text succeeds with the same value.
Scalars and the values that were there before are the same, and what both have made corresponds:
it has the same contents, up to the references of what they have made. -/
theorem evaluate_of_read_build {e : Expr} (sound : b.cache.Sound)
    (built : build h filters source asCollection context b = .ok tree b')
    (parsed : Expr.parse source = .ok e) (ambient : Value)
    (nonnull : (context.getD ambient).isNull = false) {env : Embedding W} {s : Store W}
    (closed : s.heap.Closed) (has : s.heap.Has (context.getD ambient))
    (quiet : env.Quiet s.heap) (quietFilters : filters.Quiet s.heap) {m : Memos}
    (fresh : b'.memos.Untouched b.memos.slots.size b'.memos.slots.size m) {o : Observed}
    {t : WatchStore W} (read : tree.read env ambient ⟨s, m⟩ = .ok o t) :
    ∃ (ρ : Correspondence s.heap) (v : Value) (t' : Store W),
      e.evaluate env filters (context.getD ambient) s = .ok v t' ∧
      ρ.Corresponds o.get v ∧ ρ.Heaps t.store.heap t'.heap ∧ (s.heap.Has o.get → v = o.get) := by
  have hwatched : ∀ d, Expr.Within d e → d.Watched := by
    obtain ⟨_, e', root, w, hparse, _, hw, _⟩ := build_eq_ok sound built
    obtain rfl : e = e' := by
      rw [hparse] at parsed
      cases parsed
      rfl
    exact Watch.watched_of_accepts ⟨_, _, _, hw⟩ (Expr.formed_of_parse parsed)
  obtain ⟨m', hread⟩ := read_build sound built parsed ambient nonnull env s fresh
  rw [read] at hread
  cases heager : e.evaluateEagerly env filters (context.getD ambient) s with
  | error err s' =>
    rw [heager] at hread
    cases hread
  | ok v s' =>
    rw [heager] at hread
    cases hread
    obtain ⟨ρ, v', t', hlazy, _, hheaps, hv⟩ := Expr.refines_evaluate quiet quietFilters has
      hwatched (atStart s.heap) s s v s' (heaps_atStart closed) heager
    have hget : (if asCollection then Observed.changes v else Observed.value v).get = v := by
      cases asCollection <;> rfl
    rw [hget]
    exact ⟨ρ, v', t', hlazy, hv, hheaps, fun hold => hv.eq_of_has hold⟩

/-- An object with two fields. -/
def flagged : Heap := { objects := #[[("a", .bool false), ("b", .int 2)]] }

theorem closed_flagged : flagged.Closed := by
  refine ⟨fun r v hv => ?_, fun r p hp => ?_⟩
  · simp [flagged, Heap.items] at hv
  · cases r with
    | zero =>
      simp only [flagged, Heap.fields, List.getElem?_toArray, List.getElem?_cons_zero,
        Option.getD_some, List.mem_cons, List.not_mem_nil, or_false] at hp
      rcases hp with rfl | rfl <;> trivial
    | succ r => simp [flagged, Heap.fields] at hp

/-- Reading makes the arrays of both branches and evaluating that of one, so that the third array
of the one answers to the second of the other. -/
theorem evaluate_of_read_build_limited :
    ∃ (tree : Watch Unit) (b' : WatchBuilder) (t : WatchStore Unit) (ρ : Correspondence flagged)
      (t' : Store Unit),
      build .empty (fun _ => some Filter.limitTo) "(a ? [b] : [b, b]) | limitTo:1" false none {} =
        .ok tree b' ∧
      tree.read .none (.object 0) ⟨⟨flagged, ()⟩, b'.memos⟩ = .ok (.value (.array 2)) t ∧
      (Expr.filter (.conditional (.scope "a") (.array [.scope "b"])
          (.array [.scope "b", .scope "b"])) "limitTo" [.literal (.int 1)]).evaluate .none
        (fun _ => some Filter.limitTo) (.object 0) ⟨flagged, ()⟩ = .ok (.array 1) t' ∧
      ρ.Corresponds (.array 2) (.array 1) ∧ ρ.Heaps t.store.heap t'.heap := by
  have parsed : Expr.parse "(a ? [b] : [b, b]) | limitTo:1" =
      .ok (.filter (.conditional (.scope "a") (.array [.scope "b"])
        (.array [.scope "b", .scope "b"])) "limitTo" [.literal (.int 1)]) := by cbv
  obtain ⟨tree, b', built⟩ : ∃ (tree : Watch Unit) (b' : WatchBuilder),
      build .empty (fun _ => some Filter.limitTo) "(a ? [b] : [b, b]) | limitTo:1" false none {} =
        .ok tree b' := ⟨_, _, by cbv⟩
  have fresh : b'.memos.Untouched 0 b'.memos.slots.size b'.memos := fun _ _ _ => rfl
  have has : flagged.Has (.object 0) := Nat.zero_lt_one
  have quietFilters : FilterLookup.Quiet flagged
      (fun _ => some Filter.limitTo : FilterLookup Unit) := by
    rintro name _ ⟨⟩
    exact Filter.steady_limitTo
  have heager : (Expr.filter (.conditional (.scope "a") (.array [.scope "b"])
        (.array [.scope "b", .scope "b"])) "limitTo" [.literal (.int 1)]).evaluateEagerly .none
      (fun _ => some Filter.limitTo) (.object 0) ⟨flagged, ()⟩ = .ok (.array 2)
        ⟨{ flagged with arrays := #[#[.int 2], #[.int 2, .int 2], #[.int 2]] }, ()⟩ := by rfl
  have hlazy : (Expr.filter (.conditional (.scope "a") (.array [.scope "b"])
        (.array [.scope "b", .scope "b"])) "limitTo" [.literal (.int 1)]).evaluate .none
      (fun _ => some Filter.limitTo) (.object 0) ⟨flagged, ()⟩ = .ok (.array 1)
        ⟨{ flagged with arrays := #[#[.int 2, .int 2], #[.int 2]] }, ()⟩ := by rfl
  obtain ⟨m', hread⟩ := read_build ParseCache.sound_empty built parsed (.object 0) rfl .none
    ⟨flagged, ()⟩ fresh
  rw [Option.getD_none, heager] at hread
  obtain ⟨ρ, v, t', hlazy', hv, hheaps, _⟩ := evaluate_of_read_build ParseCache.sound_empty built
    parsed (.object 0) rfl closed_flagged has (Embedding.quiet_none flagged) quietFilters fresh
    hread
  rw [Option.getD_none, hlazy] at hlazy'
  cases hlazy'
  exact ⟨tree, b', _, ρ, _, built, hread, hlazy, hv, hheaps⟩

end WatchBuilder

end TemplateExpr
