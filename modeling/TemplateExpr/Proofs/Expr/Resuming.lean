import TemplateExpr.Proofs.Expr.Spelling

/-!
# Reading on behind a tree

The members, keys and calls that stand behind a tree in a text go under its negations.

* `Grammar.resume`    reads them;
* `Grammar.ReadsAs`   tokens that read as a tree, whatever stands behind them.
-/

namespace TemplateExpr

namespace Expr

/-- The part under the negations at the front of a tree is changed. -/
def underNots (f : Expr → Expr) : Expr → Expr
  | not e => not (underNots f e)
  | e => f e

/-- What arguments written behind a tree make of it. -/
def called (args : List Expr) : Expr → Expr
  | scope name => callScope name args
  | member receiver name => callMember receiver name args
  | e => callFunction e args

theorem underNots_of_ne {f : Expr → Expr} {e : Expr} (h : ∀ e', e ≠ not e') :
    underNots f e = f e := by
  unfold underNots
  split
  · next e' => exact absurd rfl (h e')
  · rfl

theorem underNots_underNots {f g : Expr → Expr} (hf : ∀ e e', f e ≠ not e') (e : Expr) :
    underNots g (underNots f e) = underNots (fun e => g (f e)) e := by
  fun_induction underNots f e with
  | case1 e ih => rw [underNots, underNots, ih]
  | case2 e hne => rw [underNots_of_ne (hf e), underNots_of_ne hne]

end Expr

namespace Grammar

open TemplateExpr.Expr

section
variable (source : String)

/-! ## going on after a tree -/

/-- Reads members, keys and calls behind a tree that is no negation. -/
def goOn (e : Expr) (rest : List Token) : Reading Expr :=
  match after "(" rest with
  | some rest₁ =>
    (arguments source ")" rest₁).reading.bind fun (args, rest₂) =>
      (accessRest source (called args e) rest₂).reading
  | none => (accessRest source e rest).reading

/-- Reads members, keys and calls behind a tree. They go under its negations. -/
def resume : Expr → List Token → Reading Expr
  | .not e, rest => (resume e rest).map fun (e', rest') => (.not e', rest')
  | e, rest => goOn source e rest

/-- A tree that is called by its value where arguments follow. -/
def IsClosed : Expr → Prop
  | .not _ | .scope _ | .member .. => False
  | _ => True

theorem goOn_of_isClosed {e : Expr} (he : IsClosed e) (rest : List Token) :
    goOn source e rest = (accessRest source e rest).reading := by
  have hcall : ∀ args, called args e = .callFunction e args := by
    intro args
    cases e <;> first | rfl | exact absurd he id
  unfold goOn
  cases h : after "(" rest with
  | none => rfl
  | some rest₁ =>
    obtain ⟨t, rfl, ht⟩ := after_eq_some h
    rw [reading_accessRest_paren source e ht]
    simp only [hcall]

theorem resume_of_isClosed {e : Expr} (he : IsClosed e) (rest : List Token) :
    resume source e rest = (accessRest source e rest).reading := by
  rw [← goOn_of_isClosed source he]
  cases e <;> first | rfl | exact absurd he id

theorem goOn_stop (e : Expr) {rest : List Token} (h : Stops accessMarks rest) :
    goOn source e rest = some (e, rest) := by
  unfold goOn
  rw [h "(" (by decide)]
  exact reading_accessRest_stop source e h

theorem resume_stop (e : Expr) {rest : List Token} (h : Stops accessMarks rest) :
    resume source e rest = some (e, rest) := by
  fun_induction resume source e rest with
  | case1 => simp_all
  | case2 => exact goOn_stop source _ h

/-- What is read behind a tree goes under its negations: it is enough to see it behind the rest. -/
theorem resume_underNots {f : Expr → Expr} {ts rest : List Token}
    (hf : ∀ e, resume source (f e) rest = goOn source (f e) rest)
    (h : ∀ e, goOn source e ts = goOn source (f e) rest) (e : Expr) :
    resume source e ts = resume source (underNots f e) rest := by
  fun_induction underNots f e with
  | case1 e ih => rw [resume, resume, ih]
  | case2 e hne =>
    rw [hf, ← h]
    unfold resume
    split
    · next e' => exact absurd rfl (hne e')
    · rfl

theorem resume_none {ts : List Token} (h : ∀ e, goOn source e ts = none) (e : Expr) :
    resume source e ts = none := by
  fun_induction resume source e ts with
  | case1 => simp_all
  | case2 => exact h _

theorem isSpelled_ofSymbol (s : String) : (Token.ofSymbol s).isSpelled s = true := by
  simp [Token.isSpelled, Token.ofSymbol]

theorem resume_member (e : Expr) (name : String) (rest : List Token) :
    resume source e (.ofSymbol "." :: .ofWord name :: rest) =
      resume source (underNots (.member · name) e) rest := by
  refine resume_underNots source (fun _ => rfl) (fun e => ?_) e
  have hdot := isSpelled_ofSymbol "."
  unfold goOn
  rw [after_cons_of_ne hdot (by decide), reading_accessRest_dot source e hdot rfl]
  cases after "(" rest <;> rfl

theorem resume_keyed {key : Option Expr} {ks rest : List Token}
    (hk : (expression source (ks ++ .ofSymbol "]" :: rest)).reading =
      key.map (·, .ofSymbol "]" :: rest)) (e : Expr) :
    resume source e (.ofSymbol "[" :: (ks ++ .ofSymbol "]" :: rest)) =
      key.bind fun k => resume source (underNots (.keyed · k) e) rest := by
  have hopen := isSpelled_ofSymbol "["
  have hgo : ∀ e, goOn source e (.ofSymbol "[" :: (ks ++ .ofSymbol "]" :: rest)) =
      key.bind fun k => (accessRest source (.keyed e k) rest).reading := by
    intro e
    unfold goOn
    rw [after_cons_of_ne hopen (by decide), reading_accessRest_bracket source e hopen, hk]
    cases key with
    | none => rfl
    | some k =>
      simp only [Option.map_some, Option.bind_some, after_cons_self (isSpelled_ofSymbol "]")]
  cases key with
  | none => exact resume_none source hgo e
  | some k =>
    refine resume_underNots source (fun _ => rfl) (fun e => ?_) e
    rw [hgo, goOn_of_isClosed source (e := .keyed e k) trivial]
    rfl

theorem isClosed_called (args : List Expr) (e : Expr) : IsClosed (called args e) := by
  cases e <;> trivial

theorem resume_call {args : Option (List Expr)} {as rest : List Token}
    (ha : (arguments source ")" (as ++ .ofSymbol ")" :: rest)).reading = args.map (·, rest))
    (e : Expr) :
    resume source e (.ofSymbol "(" :: (as ++ .ofSymbol ")" :: rest)) =
      args.bind fun as => resume source (underNots (called as) e) rest := by
  have hgo : ∀ e, goOn source e (.ofSymbol "(" :: (as ++ .ofSymbol ")" :: rest)) =
      args.bind fun as => (accessRest source (called as e) rest).reading := by
    intro e
    unfold goOn
    rw [after_cons_self (isSpelled_ofSymbol "(")]
    simp only [ha]
    cases args <;> rfl
  cases args with
  | none => exact resume_none source hgo e
  | some as =>
    refine resume_underNots source (fun e => ?_) (fun e => ?_) e
    · rw [resume_of_isClosed source (isClosed_called as e),
        goOn_of_isClosed source (isClosed_called as e)]
    · rw [hgo, goOn_of_isClosed source (isClosed_called as e)]
      rfl

theorem resume_callMember {args : Option (List Expr)} {as rest : List Token}
    (ha : (arguments source ")" (as ++ .ofSymbol ")" :: rest)).reading = args.map (·, rest))
    (e : Expr) (name : String) :
    resume source e
        (.ofSymbol "." :: .ofWord name :: .ofSymbol "(" :: (as ++ .ofSymbol ")" :: rest)) =
      args.bind fun as => resume source (underNots (.callMember · name as) e) rest := by
  rw [resume_member, resume_call source ha]
  simp only [underNots_underNots (f := (Expr.member · name)) (fun _ _ => Expr.noConfusion), called]

/-! ## levels -/

theorem reading_operand_of_unary {ts rest : List Token} {r : Option Expr}
    (h : (unary source ts).reading = r.map (·, rest)) (p : Precedence)
    (hs : Stops (operandMarks p) rest) : (operand source p ts).reading = r.map (·, rest) := by
  induction hp : p.height using Nat.strongRecOn generalizing p with
  | _ n ih =>
    rw [reading_operand]
    cases ht : p.tighter? with
    | none => exact h
    | some q =>
      have hsub := operandMarks_tighter ht
      have hq := ih q.height (hp ▸ Precedence.height_tighter ht) q
        (hs.mono (List.Subset.trans (List.subset_append_left _ _) hsub)) rfl
      have hrest : Stops (levelMarks q) rest :=
        hs.mono (List.Subset.trans (List.subset_append_right _ _) hsub)
      simp only
      rw [reading_binary, hq]
      cases r with
      | none => rfl
      | some e => exact reading_binaryRest_stop source e hrest

/-- A looser level reads no more where its operators do not follow. -/
theorem reading_binary_of_tighter {ts rest : List Token} {r : Option Expr} {p q : Precedence}
    (hq : q.tighter? = some p) (h : (binary source p ts).reading = r.map (·, rest))
    (hs : Stops (levelMarks q) rest) : (binary source q ts).reading = r.map (·, rest) := by
  rw [reading_binary, reading_operand, hq]
  simp only [h]
  cases r with
  | none => rfl
  | some e => exact reading_binaryRest_stop source e hs

theorem reading_disjunction {ts rest : List Token} {r : Option Expr} {p : Precedence}
    (h : (binary source p ts).reading = r.map (·, rest)) (hs : Stops expressionMarks rest) :
    (binary source .disjunction ts).reading = r.map (·, rest) := by
  have hand : (binary source .conjunction ts).reading = r.map (·, rest) →
      (binary source .disjunction ts).reading = r.map (·, rest) :=
    fun h => reading_binary_of_tighter source rfl h (hs.mono (by decide))
  have heq : (binary source .equality ts).reading = r.map (·, rest) →
      (binary source .disjunction ts).reading = r.map (·, rest) :=
    fun h => hand (reading_binary_of_tighter source rfl h (hs.mono (by decide)))
  have hrel : (binary source .relation ts).reading = r.map (·, rest) →
      (binary source .disjunction ts).reading = r.map (·, rest) :=
    fun h => heq (reading_binary_of_tighter source rfl h (hs.mono (by decide)))
  have hsum : (binary source .sum ts).reading = r.map (·, rest) →
      (binary source .disjunction ts).reading = r.map (·, rest) :=
    fun h => hrel (reading_binary_of_tighter source rfl h (hs.mono (by decide)))
  cases p with
  | disjunction => exact h
  | conjunction => exact hand h
  | equality => exact heq h
  | relation => exact hrel h
  | sum => exact hsum h
  | product => exact hsum (reading_binary_of_tighter source rfl h (hs.mono (by decide)))

theorem reading_expression_of_binary {ts rest : List Token} {r : Option Expr} {p : Precedence}
    (h : (binary source p ts).reading = r.map (·, rest)) (hs : Stops expressionMarks rest) :
    (expression source ts).reading = r.map (·, rest) := by
  rw [reading_expression, reading_conditional, reading_disjunction source h hs]
  cases r with
  | none => rfl
  | some e => simp only [Option.map_some, Option.bind_some, hs "?" (by decide), hs "=" (by decide)]

/-- The tokens are read as the tree, with what stands behind them. -/
def ReadsAs (ts : List Token) (r : Option Expr) : Prop :=
  ∀ rest, (unary source (ts ++ rest)).reading = r.bind (resume source · rest)

variable {source}

theorem ReadsAs.unary {ts : List Token} {r : Option Expr} (h : ReadsAs source ts r)
    {rest : List Token} (hs : Stops accessMarks rest) :
    (unary source (ts ++ rest)).reading = r.map (·, rest) := by
  rw [h rest]
  cases r with
  | none => rfl
  | some e => exact resume_stop source e hs

theorem ReadsAs.operand {ts : List Token} {r : Option Expr} (h : ReadsAs source ts r)
    (p : Precedence) {rest : List Token} (hs : Stops (operandMarks p) rest) :
    (operand source p (ts ++ rest)).reading = r.map (·, rest) :=
  reading_operand_of_unary source (h.unary (hs.mono (accessMarks_subset p))) p hs

theorem ReadsAs.binary {ts : List Token} {r : Option Expr} (h : ReadsAs source ts r)
    (p : Precedence) {rest : List Token} (hs : Stops (operandMarks p) rest) :
    (binary source p (ts ++ rest)).reading =
      r.bind fun e => (binaryRest source p e rest).reading := by
  rw [reading_binary, h.operand p hs]
  cases r <;> rfl

theorem ReadsAs.expression {ts : List Token} {r : Option Expr} (h : ReadsAs source ts r)
    {rest : List Token} (hs : Stops expressionMarks rest) :
    (expression source (ts ++ rest)).reading = r.map (·, rest) := by
  refine reading_expression_of_binary (p := .disjunction) source ?_ hs
  rw [h.binary .disjunction (hs.mono (by decide))]
  cases r with
  | none => rfl
  | some e => exact reading_binaryRest_stop source e (hs.mono (by decide))

/-! ## primaries -/

theorem reading_unary_of_primary {ts : List Token} (h : StartsUnlike signs ts) :
    (unary source ts).reading =
      (primary source ts).reading.bind fun (e, rest) => (accessRest source e rest).reading := by
  rw [reading_unary_of_unlike h, reading_access]

theorem readsAs_primary {ts : List Token} {r : Option Expr} (hs : StartsUnlike signs ts)
    (hp : ∀ rest, (primary source (ts ++ rest)).reading = r.map (·, rest))
    (hc : ∀ e, r = some e → IsClosed e) : ReadsAs source ts r := by
  intro rest
  rw [reading_unary_of_primary (hs.append rest), hp rest]
  cases r with
  | none => rfl
  | some e => exact (resume_of_isClosed source (hc e rfl) rest).symm

theorem readsAs_group {ts : List Token} {r : Option Expr}
    (he : ∀ rest, (expression source (ts ++ rest)).reading = r.map (·, .ofSymbol ")" :: rest))
    (hc : ∀ e, r = some e → IsClosed e) : ReadsAs source (.ofSymbol "(" :: ts) r := by
  refine readsAs_primary (.of_isSpelled (isSpelled_ofSymbol "(") (by decide) _) (fun rest => ?_) hc
  rw [List.cons_append]
  exact reading_primary_group (isSpelled_ofSymbol "(") (isSpelled_ofSymbol ")") (he rest)

theorem readsAs_array {elements : Option (List Expr)} {ts : List Token}
    (ha : ∀ rest, (arguments source "]" (ts ++ .ofSymbol "]" :: rest)).reading =
      elements.map (·, rest)) :
    ReadsAs source (.ofSymbol "[" :: (ts ++ [.ofSymbol "]"])) (elements.map .array) := by
  have hopen := isSpelled_ofSymbol "["
  refine readsAs_primary (.of_isSpelled hopen (by decide) _) (fun rest => ?_) (fun e he => ?_)
  · rw [bracketed_append, reading_primary_bracket source hopen, ha rest]
    cases elements <;> rfl
  · obtain ⟨_, _, rfl⟩ := Option.map_eq_some_iff.mp he
    trivial

theorem readsAs_object {keys : List String} {values : Option (List Expr)} {ts : List Token}
    (hlen : ∀ vs, values = some vs → keys.length = vs.length)
    (ha : ∀ rest, (entries source (ts ++ .ofSymbol "\x7d" :: rest)).reading =
      (values.map (keys.zip ·)).map (·, rest)) :
    ReadsAs source (.ofSymbol "\x7b" :: (ts ++ [.ofSymbol "\x7d"]))
      (values.map (.object keys)) := by
  have hopen := isSpelled_ofSymbol "\x7b"
  refine readsAs_primary (.of_isSpelled hopen (by decide) _) (fun rest => ?_) (fun e he => ?_)
  · rw [bracketed_append, reading_primary_brace source hopen, ha rest]
    cases hvs : values with
    | none => rfl
    | some vs =>
      have hl := hlen vs hvs
      simp only [Option.map_some, List.map_fst_zip (Nat.le_of_eq hl),
        List.map_snd_zip (Nat.le_of_eq hl.symm)]
  · obtain ⟨_, _, rfl⟩ := Option.map_eq_some_iff.mp he
    trivial

theorem readsAs_scope {name : String} (hn : isName name.toList = true) (hr : name ∉ reserved) :
    ReadsAs source [.ofWord name] (some (.scope name)) := by
  have hf : (Token.ofWord name).Formed := fun _ => hn
  intro rest
  rw [List.singleton_append, reading_unary_of_primary (.of_word rfl hf (by decide) rest),
    reading_primary_of_unlike (.of_word rfl hf (by decide) rest), atom,
    constant?_of_word rfl hr]
  show _ = goOn source (.scope name) rest
  unfold goOn
  simp only [Token.ofWord]
  cases after "(" rest with
  | none => rfl
  | some rest₁ =>
    simp only [Option.bind_map]
    rfl

theorem readsAs_callScope {name : String} (hn : isName name.toList = true) (hr : name ∉ reserved)
    {args : Option (List Expr)} {as : List Token}
    (ha : ∀ rest, (arguments source ")" (as ++ .ofSymbol ")" :: rest)).reading =
      args.map (·, rest)) :
    ReadsAs source (.ofWord name :: .ofSymbol "(" :: (as ++ [.ofSymbol ")"]))
      (args.map (.callScope name)) := by
  intro rest
  have hread : ReadsAs source [.ofWord name] (some (.scope name)) := readsAs_scope hn hr
  have hscope := hread (.ofSymbol "(" :: (as ++ .ofSymbol ")" :: rest))
  rw [List.singleton_append, Option.bind_some, resume_call source (ha rest)] at hscope
  rw [List.cons_append, bracketed_append, hscope]
  cases args with
  | none => rfl
  | some as => rfl

theorem readsAs_atom {t : Token} {e : Expr} (ht : StartsUnlike ("(" :: "[" :: "\x7b" :: signs) [t])
    (ha : ∀ rest, atom source (t :: rest) = some (e, rest)) (hc : IsClosed e) :
    ReadsAs source [t] (some e) := by
  refine readsAs_primary (ht.mono (by decide)) (fun rest => ?_) (by rintro _ ⟨⟩; exact hc)
  rw [reading_primary_of_unlike ((ht.append rest).mono (by decide)), List.singleton_append, ha]
  rfl

theorem readsAs_str (s : String) : ReadsAs source [.ofString s] (some (.str s)) := by
  have hl : ∀ spelling, (Token.ofString s).isSpelled spelling = false := fun _ => rfl
  refine readsAs_atom (.of_literal hl _) (fun rest => ?_) trivial
  rw [atom, constant?_of_literal hl]
  rfl

theorem readsAs_constant {s : String} {v : Value} (hs : s ∉ "(" :: "[" :: "\x7b" :: signs)
    (hv : constant? (.ofWord s) = some v) :
    ReadsAs source [.ofWord s] (some (.literal v)) := by
  have ht : (Token.ofWord s).isSpelled s = true := by simp [Token.isSpelled, Token.ofWord]
  refine readsAs_atom (.of_isSpelled ht hs _) (fun rest => ?_) trivial
  rw [atom, hv]

theorem readsAs_literal (h : Heap) {v : Value} (hv : v.IsLiteral) :
    ReadsAs source [literalToken h v] (some (.literal v)) := by
  cases hv with
  | null => exact readsAs_constant (s := "null") (by decide) rfl
  | bool b =>
    cases b with
    | false => exact readsAs_constant (s := "false") (by decide) rfl
    | true => exact readsAs_constant (s := "true") (by decide) rfl
  | @number n _ =>
    have hnumber : ∀ text, ReadsAs source [.ofNumber text n] (some (.literal (.ofNumber n))) := by
      intro text
      have hl : ∀ s, (Token.ofNumber text n).isSpelled s = false := fun _ => rfl
      refine readsAs_atom (.of_literal hl _) (fun rest => ?_) trivial
      rw [atom, constant?_of_literal hl]
      rfl
    cases n <;> exact hnumber _

/-! ## operations in parentheses -/

theorem exists_level (op : BinOp) : ∃ p : Precedence, op ∈ p.operators := by
  cases op with
  | equal => exact ⟨.equality, by decide⟩
  | notEqual => exact ⟨.equality, by decide⟩
  | and => exact ⟨.conjunction, by decide⟩
  | or => exact ⟨.disjunction, by decide⟩
  | relation op => exact ⟨.relation, by cases op <;> decide⟩
  | arith op =>
    cases op with
    | add | subtract => exact ⟨.sum, by decide⟩
    | multiply | divide | floorDivide | modulo => exact ⟨.product, by decide⟩

theorem stops_close {marks : List String} (h : ")" ∉ marks) (rest : List Token) :
    Stops marks (.ofSymbol ")" :: rest) := .cons (isSpelled_ofSymbol ")") h rest

theorem close_not_mem_operandMarks (p : Precedence) : ")" ∉ operandMarks p ++ levelMarks p := by
  cases p <;> decide

theorem reading_operation {ls rs : List Token} {l r : Option Expr} (hl : ReadsAs source ls l)
    (hr : ReadsAs source rs r) (op : BinOp) (rest : List Token) :
    (expression source (ls ++ .ofSymbol op.symbol :: (rs ++ .ofSymbol ")" :: rest))).reading =
      (l.bind fun l => r.map (.binary op l)).map (·, .ofSymbol ")" :: rest) := by
  obtain ⟨p, hop⟩ := exists_level op
  have hsymbol := isSpelled_ofSymbol op.symbol
  have hclose := close_not_mem_operandMarks p
  rw [List.mem_append, not_or] at hclose
  refine reading_expression_of_binary (p := p) source ?_ (stops_close (by decide) rest)
  rw [hl.binary p (.cons hsymbol (levelMark_not_mem_operandMarks hop) _)]
  cases l with
  | none => rfl
  | some l =>
    simp only [Option.bind_some]
    rw [reading_binaryRest_cons, operator?_eq_some hop hsymbol]
    simp only
    rw [hr.operand p (stops_close hclose.1 rest)]
    cases r with
    | none => rfl
    | some r => exact reading_binaryRest_stop source _ (stops_close hclose.2 rest)

theorem reading_choice {cs ys ns : List Token} {c y n : Option Expr} (hc : ReadsAs source cs c)
    (hy : ReadsAs source ys y) (hn : ReadsAs source ns n) (rest : List Token) :
    (expression source (cs ++ .ofSymbol "?" ::
        (ys ++ .ofSymbol ":" :: (ns ++ .ofSymbol ")" :: rest)))).reading =
      (c.bind fun c => y.bind fun y => n.map (.conditional c y)).map
        (·, .ofSymbol ")" :: rest) := by
  have hmark := isSpelled_ofSymbol "?"
  have hcolon := isSpelled_ofSymbol ":"
  have hyes := hy.expression (.cons hcolon (by decide) (ns ++ .ofSymbol ")" :: rest))
  have hno := hn.expression (stops_close (by decide) rest)
  rw [reading_expression, reading_conditional, hc.binary .disjunction (.cons hmark (by decide) _)]
  cases c with
  | none => rfl
  | some c =>
    simp only [Option.bind_some]
    rw [reading_binaryRest_stop source c (.cons hmark (by decide) _)]
    simp only [Option.bind_some, after_cons_self hmark, hyes]
    cases y with
    | none => rfl
    | some y =>
      simp only [Option.map_some, Option.bind_some, after_cons_self hcolon, hno]
      cases n with
      | none => rfl
      | some n =>
        simp only [Option.map_some, Option.bind_some,
          after_cons_of_ne (isSpelled_ofSymbol ")") (show "=" ≠ ")" by decide)]

theorem reading_assignment {us vs : List Token} {t v : Option Expr} (ht : ReadsAs source us t)
    (hv : ReadsAs source vs v) (rest : List Token) :
    (expression source (us ++ .ofSymbol "=" :: (vs ++ .ofSymbol ")" :: rest))).reading =
      (t.bind fun t => if t.isAssignable then v.map (.assign t) else none).map
        (·, .ofSymbol ")" :: rest) := by
  have heq := isSpelled_ofSymbol "="
  have hvalue := hv.expression (stops_close (by decide) rest)
  rw [reading_expression, reading_conditional, ht.binary .disjunction (.cons heq (by decide) _)]
  cases t with
  | none => rfl
  | some t =>
    simp only [Option.bind_some]
    rw [reading_binaryRest_stop source t (.cons heq (by decide) _)]
    simp only [Option.bind_some, after_cons_of_ne heq (show "?" ≠ "=" by decide),
      after_cons_self heq, hvalue]
    split
    · cases v <;> rfl
    · rfl

theorem readsAs_operation {ls rs : List Token} {l r : Option Expr} (hl : ReadsAs source ls l)
    (hr : ReadsAs source rs r) (op : BinOp) :
    ReadsAs source
      (.ofSymbol "(" :: (ls ++ .ofSymbol op.symbol :: (rs ++ [.ofSymbol ")"])))
      (l.bind fun l => r.map (.binary op l)) := by
  refine readsAs_group (fun rest => ?_) (fun e he => ?_)
  · rw [List.append_assoc, List.cons_append, List.append_assoc]
    exact reading_operation hl hr op rest
  · obtain ⟨_, _, he⟩ := Option.bind_eq_some_iff.mp he
    obtain ⟨_, _, rfl⟩ := Option.map_eq_some_iff.mp he
    trivial

theorem readsAs_choice {cs ys ns : List Token} {c y n : Option Expr} (hc : ReadsAs source cs c)
    (hy : ReadsAs source ys y) (hn : ReadsAs source ns n) :
    ReadsAs source
      (.ofSymbol "(" :: (cs ++ .ofSymbol "?" :: (ys ++ .ofSymbol ":" :: (ns ++ [.ofSymbol ")"]))))
      (c.bind fun c => y.bind fun y => n.map (.conditional c y)) := by
  refine readsAs_group (fun rest => ?_) (fun e he => ?_)
  · rw [List.append_assoc, List.cons_append, List.append_assoc, List.cons_append,
      List.append_assoc]
    exact reading_choice hc hy hn rest
  · obtain ⟨_, _, he⟩ := Option.bind_eq_some_iff.mp he
    obtain ⟨_, _, he⟩ := Option.bind_eq_some_iff.mp he
    obtain ⟨_, _, rfl⟩ := Option.map_eq_some_iff.mp he
    trivial

theorem readsAs_assignment {us vs : List Token} {t v : Option Expr} (ht : ReadsAs source us t)
    (hv : ReadsAs source vs v) :
    ReadsAs source (.ofSymbol "(" :: (us ++ .ofSymbol "=" :: (vs ++ [.ofSymbol ")"])))
      (t.bind fun t => if t.isAssignable then v.map (.assign t) else none) := by
  refine readsAs_group (fun rest => ?_) (fun e he => ?_)
  · rw [List.append_assoc, List.cons_append, List.append_assoc]
    exact reading_assignment ht hv rest
  · obtain ⟨t', _, he⟩ := Option.bind_eq_some_iff.mp he
    split at he
    · obtain ⟨_, _, rfl⟩ := Option.map_eq_some_iff.mp he
      trivial
    · simp at he

/-! ## accesses and negations -/

namespace ReadsAs

variable {ts : List Token} {r : Option Expr}

theorem member (h : ReadsAs source ts r) (name : String) :
    ReadsAs source (ts ++ [.ofSymbol ".", .ofWord name])
      (r.map (underNots (.member · name))) := by
  intro rest
  rw [List.append_assoc, h]
  simp only [List.cons_append, List.nil_append, resume_member, Option.bind_map]
  rfl

theorem keyed {ks : List Token} {key : Option Expr} (h : ReadsAs source ts r)
    (hk : ReadsAs source ks key) :
    ReadsAs source (ts ++ .ofSymbol "[" :: (ks ++ [.ofSymbol "]"]))
      (r.bind fun r => key.map fun k => underNots (.keyed · k) r) := by
  intro rest
  have hkey := hk.expression
    (.cons (isSpelled_ofSymbol "]") (by decide : "]" ∉ expressionMarks) rest)
  rw [List.append_assoc, bracketed_append, h]
  simp only [resume_keyed source hkey]
  cases r with
  | none => rfl
  | some r => cases key <;> rfl

theorem callMember {as : List Token} {args : Option (List Expr)} (h : ReadsAs source ts r)
    (name : String)
    (ha : ∀ rest, (arguments source ")" (as ++ .ofSymbol ")" :: rest)).reading =
      args.map (·, rest)) :
    ReadsAs source
      (ts ++ .ofSymbol "." :: .ofWord name :: .ofSymbol "(" :: (as ++ [.ofSymbol ")"]))
      (r.bind fun r => args.map fun as => underNots (.callMember · name as) r) := by
  intro rest
  rw [List.append_assoc, List.cons_append, List.cons_append, bracketed_append, h]
  simp only [resume_callMember source (ha rest)]
  cases r with
  | none => rfl
  | some r => cases args <;> rfl

theorem callFunction {as : List Token} {args : Option (List Expr)} (h : ReadsAs source ts r)
    (ha : ∀ rest, (arguments source ")" (as ++ .ofSymbol ")" :: rest)).reading =
      args.map (·, rest)) :
    ReadsAs source (ts ++ .ofSymbol "(" :: (as ++ [.ofSymbol ")"]))
      (r.bind fun r => args.map fun as => underNots (called as) r) := by
  intro rest
  rw [List.append_assoc, bracketed_append, h]
  simp only [resume_call source (ha rest)]
  cases r with
  | none => rfl
  | some r => cases args <;> rfl

theorem not (h : ReadsAs source ts r) : ReadsAs source (.ofSymbol "!" :: ts) (r.map .not) := by
  intro rest
  rw [List.cons_append, reading_unary_not source (isSpelled_ofSymbol "!"), h rest]
  cases r <;> rfl

end ReadsAs

end

end Grammar

end TemplateExpr
