import TemplateExpr.Proofs.Grammar.Statements
import TemplateExpr.Proofs.Grammar.Walk

/-!
# Walks end, and where they end

A walk through the tokens agrees with the functions that read lists of tokens, from every place and
with a budget that grows with the number of tokens ahead.

* `Call.answer`        what a function of the grammar gives for the tokens ahead;
* `Agrees`             a walk ends with the same answer, at the place where the tokens that are left
                       begin;
* `Covers`             all calls agree that are not deeper than a bound;
* `covers_body`        if the calls inside a function agree, it agrees;
* `covers_run`         so every walk agrees.
-/

namespace TemplateExpr.Grammar

variable {α β : Type}

/-- What was read and the tokens that are left, or the error. -/
def Outcome.plain {n : Nat} : Outcome α n → Except GrammarError (α × List Token)
  | .ok p => .ok (p.value, p.rest)
  | .error e => .error e

theorem plain_eq_error {n : Nat} {x : Outcome α n} {e : GrammarError} (h : x.plain = .error e) :
    x = .error e := by
  cases x with
  | ok p => cases h
  | error e' =>
    cases h
    rfl

theorem plain_eq_ok {n : Nat} {x : Outcome α n} {a : α} {rest : List Token}
    (h : x.plain = .ok (a, rest)) : ∃ shorter, x = .ok ⟨a, rest, shorter⟩ := by
  cases x with
  | ok p =>
    cases h
    exact ⟨p.shorter, rfl⟩
  | error e => cases h

namespace Call

/-- What a function gives for the tokens ahead. -/
def answer (source : String) (ts : List Token) :
    (c : Call) → Except GrammarError (c.Result × List Token)
  | program => (Grammar.program source ts).map (·, [])
  | statements separated => (Grammar.statements source separated ts).map (·, [])
  | semicolons => .ok (startsWith ";" ts, skipSemicolons ts)
  | filtered => (Grammar.filtered source ts).plain
  | filterRest input => (Grammar.filterRest source input ts).plain
  | filterArgs => (Grammar.filterArgs source ts).plain
  | expression => (Grammar.expression source ts).plain
  | conditional => (Grammar.conditional source ts).plain
  | binary p => (Grammar.binary source p ts).plain
  | operand p => (Grammar.operand source p ts).plain
  | binaryRest p left => (Grammar.binaryRest source p left ts).plain
  | unary => (Grammar.unary source ts).plain
  | access => (Grammar.access source ts).plain
  | accessRest start => (Grammar.accessRest source start ts).plain
  | primary => (Grammar.primary source ts).plain
  | arguments close => (Grammar.arguments source close ts).plain
  | items => (Grammar.items source ts).plain
  | entries => (Grammar.entries source ts).plain
  | pairs => (Grammar.pairs source ts).plain

/-- How deep the calls go that read no token. A function calls one of its own or a higher level only
behind a token. -/
def level : Call → Nat
  | program => 22
  | statements _ => 21
  | filtered => 20
  | arguments _ | entries => 19
  | items => 18
  | expression => 17
  | conditional => 16
  | binary p => 2 * p.height + 5
  | operand p => 2 * p.height + 4
  | unary => 3
  | access => 2
  | primary => 1
  | semicolons | filterRest _ | filterArgs | binaryRest .. | accessRest _ | pairs => 0

theorem level_lt (c : Call) : c.level < 32 := by
  cases c with
  | binary p | operand p =>
    have hheight := p.height_le
    simp only [level]
    omega
  | _ => simp [level]

end Call

/-- A walk that ends where the tokens that are left begin, with what was read, or that fails where
the error is located. -/
inductive Agrees (source : String) (tokens : List Token) :
    Except GrammarError (α × List Token) → EStateM.Result Stop Nat α → Prop where
  | read {a : α} {i : Nat} : i ≤ tokens.length →
      Agrees source tokens (.ok (a, tokens.drop i)) (.ok a i)
  | fault {fault : GrammarFault} {i : Nat} : i ≤ tokens.length →
      Agrees source tokens (failAt source (tokens.drop i) fault)
        (.error (.fault ⟨fault, .ofTokens (tokens.drop i), source⟩) i)

/-- The calls that are not deeper than `n` agree with the functions. Each token ahead counts for 32
calls. -/
def Covers (source : String) (tokens : List Token) (n : Nat) (call : (c : Call) → Walk c.Result) :
    Prop :=
  ∀ c i, i ≤ tokens.length → 32 * (tokens.length - i) + c.level < n →
    Agrees source tokens (c.answer source (tokens.drop i)) (call c i)

section
variable {source : String} {tokens : List Token} {i : Nat}
  {y : Except GrammarError (β × List Token)}

/-! ## steps -/

theorem skip?_eq_of_startsWith {s : String} (h : startsWith s (tokens.drop i) = true) :
    i < tokens.length ∧
      ∃ shorter, skip? s (tokens.drop i) = some ⟨tokens.drop (i + 1), shorter⟩ := by
  obtain ⟨_, hdrop⟩ | ⟨t, _, hdrop, hi⟩ := Walk.place_cases tokens i
  · rw [hdrop] at h
    cases h
  · rw [hdrop] at h
    refine ⟨hi, skip?_eq_some ?_⟩
    rw [hdrop]
    exact if_pos h

theorem skip?_eq_none_of_startsWith {s : String} {ts : List Token}
    (h : startsWith s ts = false) : skip? s ts = none := by
  cases ts with
  | nil => rfl
  | cons t ts =>
    refine if_neg ?_
    rw [show t.isSpelled s = false from h]
    decide

namespace Agrees

theorem bind {x : Except GrammarError (α × List Token)} {m : Walk α} {k : α → Walk β}
    (hm : Agrees source tokens x (m i)) (herror : ∀ e, x = .error e → y = .error e)
    (hok : ∀ a j, x = .ok (a, tokens.drop j) → j ≤ tokens.length →
      Agrees source tokens y (k a j)) :
    Agrees source tokens y ((m >>= k) i) := by
  rw [bind_apply]
  generalize hr : m i = r at hm
  cases hm with
  | read hj => exact hok _ _ rfl hj
  | fault hj =>
    rw [herror _ rfl]
    exact .fault hj

/-- What is read from a place on goes forward. -/
theorem andThen {x : Outcome α (tokens.drop i).length} {m : Walk α} {k : α → Walk β}
    (hm : Agrees source tokens x.plain (m i)) (herror : ∀ e, x = .error e → y = .error e)
    (hok : ∀ a j shorter, x = .ok ⟨a, tokens.drop j, shorter⟩ → i < j → j ≤ tokens.length →
      Agrees source tokens y (k a j)) :
    Agrees source tokens y ((m >>= k) i) := by
  refine hm.bind (fun e he => herror e (plain_eq_error he)) fun a j hx hj => ?_
  obtain ⟨shorter, hx⟩ := plain_eq_ok hx
  refine hok a j shorter hx ?_ hj
  rw [List.length_drop, List.length_drop] at shorter
  omega

/-- A last call, of which only the bound on what is left changes. -/
theorem last {n : Nat} {x : Outcome β n} {r : EStateM.Result Stop Nat β}
    (hx : Agrees source tokens x.plain r) (herror : ∀ e, x = .error e → y = .error e)
    (hok : ∀ a rest shorter, x = .ok ⟨a, rest, shorter⟩ → y = .ok (a, rest)) :
    Agrees source tokens y r := by
  cases x with
  | error e =>
    rw [herror e rfl]
    exact hx
  | ok p =>
    rw [hok p.value p.rest p.shorter rfl]
    exact hx

/-- What is made of all that is ahead. -/
theorem toEnd {x : Except GrammarError α} {m : Walk α}
    (hm : Agrees source tokens (x.map (·, [])) (m i)) (f : α → β) :
    Agrees source tokens ((x.map f).map (·, [])) ((do return f (← m)) i) := by
  refine hm.bind (fun e he => ?_) fun a j hx hj => ?_
  · cases x with
    | error e' => exact congrArg Except.error (Except.error.inj he)
    | ok a => cases he
  · cases x with
    | error e => cases hx
    | ok a' =>
      obtain ⟨rfl, hend⟩ := Prod.mk.inj (Except.ok.inj hx)
      show Agrees source tokens (.ok (f a', [])) _
      rw [hend]
      exact .read hj

theorem sees {A B : Walk β} {s : String}
    (hnone : skip? s (tokens.drop i) = none → Agrees source tokens y (B i))
    (hsome : ∀ shorter, skip? s (tokens.drop i) = some ⟨tokens.drop (i + 1), shorter⟩ →
      i + 1 ≤ tokens.length → Agrees source tokens y (A i)) :
    Agrees source tokens y ((do if ← Walk.sees tokens s then A else B) i) := by
  rw [bind_apply, Walk.sees_apply]
  cases hs : startsWith s (tokens.drop i) with
  | false => exact hnone (skip?_eq_none_of_startsWith hs)
  | true =>
    obtain ⟨hi, shorter, hskip⟩ := skip?_eq_of_startsWith hs
    exact hsome shorter hskip hi

theorem optional {A B : Walk β} {s : String}
    (hnone : skip? s (tokens.drop i) = none → Agrees source tokens y (B i))
    (hsome : ∀ shorter, skip? s (tokens.drop i) = some ⟨tokens.drop (i + 1), shorter⟩ →
      i + 1 ≤ tokens.length → Agrees source tokens y (A (i + 1))) :
    Agrees source tokens y ((do if ← Walk.optional tokens s then A else B) i) := by
  rw [bind_apply, Walk.optional_apply]
  cases hs : startsWith s (tokens.drop i) with
  | false => exact hnone (skip?_eq_none_of_startsWith hs)
  | true =>
    obtain ⟨hi, shorter, hskip⟩ := skip?_eq_of_startsWith hs
    exact hsome shorter hskip hi

theorem fail (hi : i ≤ tokens.length) (fault : GrammarFault) :
    Agrees source tokens (failAt source (tokens.drop i) fault)
      ((Walk.fail source tokens fault : Walk α) i) := by
  rw [Walk.fail_apply]
  exact .fault hi

theorem unexpected (source : String) (α : Type) (hi : i ≤ tokens.length) :
    Agrees source tokens (Grammar.unexpected source (tokens.drop i))
      ((Walk.unexpected source tokens : Walk α) i) := by
  have hfails : ∀ fault, Agrees source tokens (failAt source (tokens.drop i) fault)
      ((Walk.fail source tokens fault : Walk α) i) := fail hi
  rw [Walk.unexpected, bind_apply, Walk.peek]
  obtain ⟨hpeek, hdrop⟩ | ⟨t, hpeek, hdrop, _⟩ := Walk.place_cases tokens i
  · have hfail := hfails .unexpectedEnd
    rw [hdrop] at hfail ⊢
    rw [hpeek]
    exact hfail
  · have hfail := hfails (.unexpectedToken t.text)
    rw [hdrop] at hfail ⊢
    rw [hpeek]
    exact hfail

theorem expect {s : String} {k : Unit → Walk β} (hi : i ≤ tokens.length)
    (herror : ∀ e, Grammar.expect source s (tokens.drop i) = .error e → y = .error e)
    (hok : ∀ shorter, Grammar.expect source s (tokens.drop i) =
      .ok ⟨tokens.drop (i + 1), shorter⟩ → i + 1 ≤ tokens.length →
      Agrees source tokens y (k () (i + 1))) :
    Agrees source tokens y ((Walk.expect source tokens s >>= k) i) := by
  rw [bind_apply, Walk.expect_apply]
  cases hs : startsWith s (tokens.drop i) with
  | false =>
    rw [herror ⟨.missing s, .ofTokens (tokens.drop i), source⟩]
    · exact .fault hi
    · rw [Grammar.expect, skip?_eq_none_of_startsWith hs]
      rfl
  | true =>
    obtain ⟨hlt, shorter, hskip⟩ := skip?_eq_of_startsWith hs
    refine hok shorter ?_ hlt
    rw [Grammar.expect, hskip]

theorem name (hi : i ≤ tokens.length) :
    Agrees source tokens (Grammar.name source (tokens.drop i)).plain
      (Walk.name source tokens i) := by
  have hunexpected := unexpected source String hi
  rw [Walk.name, bind_apply, Walk.peek]
  obtain ⟨hpeek, hdrop⟩ | ⟨t, hpeek, hdrop, hlt⟩ := Walk.place_cases tokens i
  · rw [hdrop] at hunexpected ⊢
    rw [hpeek]
    exact hunexpected
  · rw [hdrop] at hunexpected ⊢
    rw [hpeek, Grammar.name]
    dsimp only [Option.bind_some]
    cases t.name? with
    | none => exact hunexpected
    | some n => exact .read hlt

end Agrees

/-- Behind a token that was read there is room for every call. -/
theorem Covers.later {n : Nat} {call : (c : Call) → Walk c.Result}
    (hcall : Covers source tokens n call) (c : Call) {j : Nat}
    (hn : 32 * (tokens.length - i) ≤ n) (hij : i < j) (hj : j ≤ tokens.length) :
    Agrees source tokens (c.answer source (tokens.drop j)) (call c j) := by
  refine hcall c j hj ?_
  have hlevel := c.level_lt
  omega

/-! ## functions -/

theorem le_of_skipSemicolons {j : Nat} (hi : i ≤ tokens.length)
    (h : skipSemicolons (tokens.drop i) = tokens.drop j) : i ≤ j := by
  have hle := Lexeme.length_dropWhile_le (·.isSpelled ";") (tokens.drop i)
  rw [← skipSemicolons, h, List.length_drop, List.length_drop] at hle
  omega

theorem statements_eq (source : String) (separated : Bool) {ts : List Token} {t : Token}
    (ht : ts.head? = some t) :
    statements source separated ts =
      if startsWithCloser ts then failAt source ts (.unconsumedToken t.text)
      else (filtered source ts).plain.bind fun (e, rest) =>
        if (separated || startsWith ";" rest) && e.isFilter then
          failAt source (skipSemicolons rest) .filterInChain
        else (statements source (separated || startsWith ";" rest) (skipSemicolons rest)).map
          (e :: ·) := by
  cases ts with
  | nil => cases ht
  | cons t' tail =>
    obtain rfl : t' = t := Option.some.inj ht
    rw [statements]
    split
    · rfl
    · cases filtered source (t' :: tail) with
      | error e => rfl
      | ok p =>
        obtain ⟨e, rest, _⟩ := p
        dsimp only [Outcome.plain, Except.bind]
        split
        · rfl
        · cases statements source (separated || startsWith ";" rest) (skipSemicolons rest) <;> rfl

section
variable {n : Nat} {call : (c : Call) → Walk c.Result} (hcall : Covers source tokens n call)
  (hi : i ≤ tokens.length)
include hcall hi

theorem agrees_expression (hn : 32 * (tokens.length - i) + 17 ≤ n) :
    Agrees source tokens (expression source (tokens.drop i)).plain
      (Walk.expression source tokens call i) := by
  have hroom : 32 * (tokens.length - i) ≤ n := by omega
  rw [expression, Walk.expression]
  refine (hcall .conditional i hi hn).andThen (fun e he => by rw [he]; rfl)
    fun target j _ hx hij hj => ?_
  rw [hx]
  dsimp only
  refine .sees (fun hs => ?_) fun _ hs hlt => ?_
  · rw [hs]
    exact .read hj
  · rw [hs]
    dsimp only
    split
    · refine (hcall.later .expression hroom (by omega) hlt).andThen
        (fun e he => by rw [he]; rfl) fun value k _ hx _ hk => ?_
      rw [hx]
      exact .read hk
    · exact .fail hj _

theorem agrees_conditional (hn : 32 * (tokens.length - i) + 16 ≤ n) :
    Agrees source tokens (conditional source (tokens.drop i)).plain
      (Walk.conditional source tokens call i) := by
  have hroom : 32 * (tokens.length - i) ≤ n := by omega
  rw [conditional, Walk.conditional]
  refine (hcall (.binary .disjunction) i hi hn).andThen (fun e he => by rw [he]; rfl)
    fun condition j _ hx hij hj => ?_
  rw [hx]
  dsimp only
  refine .optional (fun hs => ?_) fun _ hs hlt => ?_
  · rw [hs]
    exact .read hj
  · rw [hs]
    dsimp only
    refine (hcall.later .expression hroom (by omega) hlt).andThen
      (fun e he => by rw [he]; rfl) fun yes k _ hx hjk hk => ?_
    rw [hx]
    dsimp only
    refine .optional (fun hs => ?_) fun _ hs hlt => ?_
    · rw [hs]
      exact .fail hk _
    · rw [hs]
      dsimp only
      refine (hcall.later .expression hroom (by omega) hlt).andThen
        (fun e he => by rw [he]; rfl) fun no l _ hx _ hl => ?_
      rw [hx]
      exact .read hl

theorem agrees_binary (p : Precedence) (hn : 32 * (tokens.length - i) + (2 * p.height + 5) ≤ n) :
    Agrees source tokens (binary source p (tokens.drop i)).plain (Walk.binary call p i) := by
  have hroom : 32 * (tokens.length - i) ≤ n := by omega
  rw [binary, Walk.binary]
  refine (hcall (.operand p) i hi hn).andThen (fun e he => by rw [he]; rfl)
    fun left j _ hx hij hj => ?_
  rw [hx]
  dsimp only
  exact (hcall.later (.binaryRest p left) hroom hij hj).last (fun e he => by rw [he]; rfl)
    fun e rest _ hx => by rw [hx]; rfl

theorem agrees_operand (p : Precedence) (hn : 32 * (tokens.length - i) + (2 * p.height + 4) ≤ n) :
    Agrees source tokens (operand source p (tokens.drop i)).plain (Walk.operand call p i) := by
  rw [operand, Walk.operand]
  split
  · next q hq =>
    rw [hq]
    refine hcall (.binary q) i hi ?_
    have hheight := Precedence.height_tighter hq
    simp only [Call.level]
    omega
  · next hq =>
    rw [hq]
    refine hcall .unary i hi ?_
    simp only [Call.level]
    omega

theorem agrees_binaryRest (p : Precedence) (left : Expr) (hn : 32 * (tokens.length - i) ≤ n) :
    Agrees source tokens (binaryRest source p left (tokens.drop i)).plain
      (Walk.binaryRest tokens call p left i) := by
  have hleft : Agrees source tokens (.ok (left, tokens.drop i)) (.ok left i) := .read hi
  rw [Walk.binaryRest, bind_apply, Walk.peek]
  obtain ⟨hpeek, hdrop⟩ | ⟨t, hpeek, hdrop, hlt⟩ := Walk.place_cases tokens i
  · rw [hdrop] at hleft ⊢
    rw [hpeek, binaryRest]
    exact hleft
  · rw [hdrop] at hleft ⊢
    rw [hpeek, binaryRest]
    dsimp only [Option.bind_some]
    cases operator? p t with
    | none => exact hleft
    | some op =>
      dsimp only
      refine (hcall.later (.operand p) hn (Nat.lt_succ_self i) hlt).andThen
        (fun e he => by rw [he]; rfl) fun right j _ hx hij hj => ?_
      rw [hx]
      dsimp only
      exact (hcall.later (.binaryRest p (.binary op left right)) hn (by omega) hj).last
        (fun e he => by rw [he]; rfl) fun e rest _ hx => by rw [hx]; rfl

theorem agrees_unary (hn : 32 * (tokens.length - i) + 3 ≤ n) :
    Agrees source tokens (unary source (tokens.drop i)).plain (Walk.unary tokens call i) := by
  have hroom : 32 * (tokens.length - i) ≤ n := by omega
  rw [unary, Walk.unary]
  refine .optional (fun hs => ?_) fun _ hs hlt => ?_
  · rw [hs]
    dsimp only
    refine .optional (fun hs => ?_) fun _ hs hlt => ?_
    · rw [hs]
      dsimp only
      refine .optional (fun hs => ?_) fun _ hs hlt => ?_
      · rw [hs]
        exact hcall .access i hi hn
      · rw [hs]
        dsimp only
        refine (hcall.later .unary hroom (Nat.lt_succ_self i) hlt).andThen
          (fun e he => by rw [he]; rfl) fun e j _ hx _ hj => ?_
        rw [hx]
        exact .read hj
    · rw [hs]
      dsimp only
      refine (hcall.later .unary hroom (Nat.lt_succ_self i) hlt).andThen
        (fun e he => by rw [he]; rfl) fun e j _ hx _ hj => ?_
      rw [hx]
      exact .read hj
  · rw [hs]
    dsimp only
    exact (hcall.later .unary hroom (Nat.lt_succ_self i) hlt).last (fun e he => by rw [he]; rfl)
      fun e rest _ hx => by rw [hx]; rfl

theorem agrees_access (hn : 32 * (tokens.length - i) + 2 ≤ n) :
    Agrees source tokens (access source (tokens.drop i)).plain (Walk.access call i) := by
  have hroom : 32 * (tokens.length - i) ≤ n := by omega
  rw [access, Walk.access]
  refine (hcall .primary i hi hn).andThen (fun e he => by rw [he]; rfl)
    fun start j _ hx hij hj => ?_
  rw [hx]
  dsimp only
  exact (hcall.later (.accessRest start) hroom hij hj).last (fun e he => by rw [he]; rfl)
    fun e rest _ hx => by rw [hx]; rfl

theorem agrees_accessRest (start : Expr) (hn : 32 * (tokens.length - i) ≤ n) :
    Agrees source tokens (accessRest source start (tokens.drop i)).plain
      (Walk.accessRest source tokens call start i) := by
  rw [accessRest, Walk.accessRest]
  refine .optional (fun hs => ?_) fun _ hs hlt => ?_
  · rw [hs]
    dsimp only
    refine .optional (fun hs => ?_) fun _ hs hlt => ?_
    · rw [hs]
      dsimp only
      refine .optional (fun hs => ?_) fun _ hs hlt => ?_
      · rw [hs]
        exact .read hi
      · rw [hs]
        dsimp only
        refine (hcall.later (.arguments ")") hn (Nat.lt_succ_self i) hlt).andThen
          (fun e he => by rw [he]; rfl) fun args j _ hx hij hj => ?_
        rw [hx]
        dsimp only
        exact (hcall.later (.accessRest (.callFunction start args)) hn (by omega) hj).last
          (fun e he => by rw [he]; rfl) fun e rest _ hx => by rw [hx]; rfl
    · rw [hs]
      dsimp only
      refine (hcall.later .expression hn (Nat.lt_succ_self i) hlt).andThen
        (fun e he => by rw [he]; rfl) fun key j _ hx hij hj => ?_
      rw [hx]
      dsimp only
      refine .expect hj (fun e he => by rw [he]; rfl) fun _ hx hlt => ?_
      rw [hx]
      dsimp only
      exact (hcall.later (.accessRest (.keyed start key)) hn (by omega) hlt).last
        (fun e he => by rw [he]; rfl) fun e rest _ hx => by rw [hx]; rfl
  · rw [hs]
    dsimp only
    refine (Agrees.name hlt).andThen (fun e he => by rw [he]; rfl) fun n j _ hx hij hj => ?_
    rw [hx]
    dsimp only
    refine .optional (fun hs => ?_) fun _ hs hlt => ?_
    · rw [hs]
      dsimp only
      exact (hcall.later (.accessRest (.member start n)) hn (by omega) hj).last
        (fun e he => by rw [he]; rfl) fun e rest _ hx => by rw [hx]; rfl
    · rw [hs]
      dsimp only
      refine (hcall.later (.arguments ")") hn (by omega) hlt).andThen
        (fun e he => by rw [he]; rfl) fun args k _ hx hjk hk => ?_
      rw [hx]
      dsimp only
      exact (hcall.later (.accessRest (.callMember start n args)) hn (by omega) hk).last
        (fun e he => by rw [he]; rfl) fun e rest _ hx => by rw [hx]; rfl

theorem agrees_atom (hn : 32 * (tokens.length - i) ≤ n)
    (hround : skip? "(" (tokens.drop i) = none) (hsquare : skip? "[" (tokens.drop i) = none)
    (hcurly : skip? "\x7b" (tokens.drop i) = none) :
    Agrees source tokens (primary source (tokens.drop i)).plain
      (Walk.atom source tokens call i) := by
  have hunexpected := Agrees.unexpected source Expr hi
  rw [primary, hround, hsquare, hcurly, Walk.atom, bind_apply, Walk.peek]
  obtain ⟨hpeek, hdrop⟩ | ⟨t, hpeek, hdrop, hlt⟩ := Walk.place_cases tokens i
  · rw [hdrop] at hunexpected ⊢
    rw [hpeek]
    exact hunexpected
  · rw [hdrop] at hunexpected ⊢
    rw [hpeek, first]
    dsimp only
    cases constant? t with
    | some v => exact .read hlt
    | none =>
      cases t.content with
      | number x => exact .read hlt
      | str x => exact .read hlt
      | symbol => exact hunexpected
      | word =>
        refine .optional (i := i + 1) (fun hs => ?_) fun _ hs hlt' => ?_
        · dsimp only
          rw [hs]
          exact .read hlt
        · dsimp only
          rw [hs]
          dsimp only
          refine (hcall.later (.arguments ")") hn (by omega) hlt').andThen
            (fun e he => by rw [he]; rfl) fun args j _ hx _ hj => ?_
          rw [hx]
          exact .read hj

theorem agrees_primary (hn : 32 * (tokens.length - i) + 1 ≤ n) :
    Agrees source tokens (primary source (tokens.drop i)).plain
      (Walk.primary source tokens call i) := by
  have hroom : 32 * (tokens.length - i) ≤ n := by omega
  rw [Walk.primary]
  refine .optional (fun hround => ?_) fun _ hround hlt => ?_
  · refine .optional (fun hsquare => ?_) fun _ hsquare hlt => ?_
    · refine .optional (fun hcurly => ?_) fun _ hcurly hlt => ?_
      · exact agrees_atom hcall hi hroom hround hsquare hcurly
      · rw [primary, hround, hsquare, hcurly]
        dsimp only
        refine (hcall.later .entries hroom (Nat.lt_succ_self i) hlt).andThen
          (fun e he => by rw [he]; rfl) fun ps j _ hx _ hj => ?_
        rw [hx]
        exact .read hj
    · rw [primary, hround, hsquare]
      dsimp only
      refine (hcall.later (.arguments "]") hroom (Nat.lt_succ_self i) hlt).andThen
        (fun e he => by rw [he]; rfl) fun args j _ hx _ hj => ?_
      rw [hx]
      exact .read hj
  · rw [primary, hround]
    dsimp only
    refine (hcall.later .expression hroom (Nat.lt_succ_self i) hlt).andThen
      (fun e he => by rw [he]; rfl) fun e j _ hx hij hj => ?_
    rw [hx]
    dsimp only
    refine .expect hj (fun e he => by rw [he]; rfl) fun _ hx hlt => ?_
    rw [hx]
    exact .read hlt

theorem agrees_arguments (close : String) (hn : 32 * (tokens.length - i) + 19 ≤ n) :
    Agrees source tokens (arguments source close (tokens.drop i)).plain
      (Walk.bracketed source tokens close (call .items) i) := by
  rw [arguments, Walk.bracketed]
  refine .optional (fun hs => ?_) fun _ hs hlt => ?_
  · rw [hs]
    dsimp only
    refine (hcall .items i hi hn).andThen (fun e he => by rw [he]; rfl) fun es j _ hx _ hj => ?_
    rw [hx]
    dsimp only
    refine .expect hj (fun e he => by rw [he]; rfl) fun _ hx hlt => ?_
    rw [hx]
    exact .read hlt
  · rw [hs]
    exact .read hlt

theorem agrees_items (hn : 32 * (tokens.length - i) + 18 ≤ n) :
    Agrees source tokens (items source (tokens.drop i)).plain (Walk.items tokens call i) := by
  have hroom : 32 * (tokens.length - i) ≤ n := by omega
  rw [items, Walk.items]
  refine (hcall .expression i hi hn).andThen (fun e he => by rw [he]; rfl)
    fun e j _ hx hij hj => ?_
  rw [hx]
  dsimp only
  refine .optional (fun hs => ?_) fun _ hs hlt => ?_
  · rw [hs]
    exact .read hj
  · rw [hs]
    dsimp only
    refine (hcall.later .items hroom (by omega) hlt).andThen (fun e he => by rw [he]; rfl)
      fun es k _ hx _ hk => ?_
    rw [hx]
    exact .read hk

theorem agrees_entries (hn : 32 * (tokens.length - i) + 19 ≤ n) :
    Agrees source tokens (entries source (tokens.drop i)).plain
      (Walk.bracketed source tokens "\x7d" (call .pairs) i) := by
  rw [entries, Walk.bracketed]
  refine .optional (fun hs => ?_) fun _ hs hlt => ?_
  · rw [hs]
    dsimp only
    refine (hcall .pairs i hi (by simp only [Call.level]; omega)).andThen
      (fun e he => by rw [he]; rfl) fun ps j _ hx _ hj => ?_
    rw [hx]
    dsimp only
    refine .expect hj (fun e he => by rw [he]; rfl) fun _ hx hlt => ?_
    rw [hx]
    exact .read hlt
  · rw [hs]
    exact .read hlt

theorem agrees_pairs (hn : 32 * (tokens.length - i) ≤ n) :
    Agrees source tokens (pairs source (tokens.drop i)).plain
      (Walk.pairs source tokens call i) := by
  have hunexpected := Agrees.unexpected source (List (String × Expr)) hi
  rw [Walk.pairs, bind_apply, Walk.peek]
  obtain ⟨hpeek, hdrop⟩ | ⟨t, hpeek, hdrop, hlt⟩ := Walk.place_cases tokens i
  · rw [hdrop] at hunexpected ⊢
    rw [hpeek, pairs]
    exact hunexpected
  · rw [hdrop] at hunexpected ⊢
    rw [hpeek, pairs]
    dsimp only [Option.bind_some]
    cases key? t with
    | none => exact hunexpected
    | some key =>
      dsimp only
      refine .expect (i := i + 1) hlt (fun e he => by rw [he]; rfl) fun _ hx hlt => ?_
      rw [hx]
      dsimp only
      refine (hcall.later .expression hn (by omega) hlt).andThen (fun e he => by rw [he]; rfl)
        fun value j _ hx hij hj => ?_
      rw [hx]
      dsimp only
      refine .optional (fun hs => ?_) fun _ hs hlt => ?_
      · rw [hs]
        exact .read hj
      · rw [hs]
        dsimp only
        refine (hcall.later .pairs hn (by omega) hlt).andThen (fun e he => by rw [he]; rfl)
          fun ps k _ hx _ hk => ?_
        rw [hx]
        exact .read hk

theorem agrees_filterArgs (hn : 32 * (tokens.length - i) ≤ n) :
    Agrees source tokens (filterArgs source (tokens.drop i)).plain
      (Walk.filterArgs tokens call i) := by
  rw [filterArgs, Walk.filterArgs]
  refine .optional (fun hs => ?_) fun _ hs hlt => ?_
  · rw [hs]
    exact .read hi
  · rw [hs]
    dsimp only
    refine (hcall.later .expression hn (Nat.lt_succ_self i) hlt).andThen
      (fun e he => by rw [he]; rfl) fun arg j _ hx hij hj => ?_
    rw [hx]
    dsimp only
    -- No argument may follow, and then this call reads no token: `andThen` is too strong.
    refine (hcall.later .filterArgs hn (by omega) hj).bind
      (fun e he => by rw [plain_eq_error he]; rfl) fun args k hx hk => ?_
    obtain ⟨_, hx⟩ := plain_eq_ok hx
    rw [hx]
    exact .read hk

theorem agrees_filterRest (input : Expr) (hn : 32 * (tokens.length - i) ≤ n) :
    Agrees source tokens (filterRest source input (tokens.drop i)).plain
      (Walk.filterRest source tokens call input i) := by
  rw [filterRest, Walk.filterRest]
  refine .optional (fun hs => ?_) fun _ hs hlt => ?_
  · rw [hs]
    exact .read hi
  · rw [hs]
    dsimp only
    refine (Agrees.name hlt).andThen (fun e he => by rw [he]; rfl) fun n j _ hx hij hj => ?_
    rw [hx]
    dsimp only
    refine (hcall.later .filterArgs hn (by omega) hj).bind
      (fun e he => by rw [plain_eq_error he]; rfl) fun args k hx hk => ?_
    obtain ⟨shorter, hx⟩ := plain_eq_ok hx
    rw [hx]
    rw [List.length_drop, List.length_drop] at shorter
    dsimp only
    exact (hcall.later (.filterRest (.filter input n args)) hn (by omega) hk).last
      (fun e he => by rw [he]; rfl) fun e rest _ hx => by rw [hx]; rfl

theorem agrees_filtered (hn : 32 * (tokens.length - i) + 20 ≤ n) :
    Agrees source tokens (filtered source (tokens.drop i)).plain (Walk.filtered call i) := by
  have hroom : 32 * (tokens.length - i) ≤ n := by omega
  rw [filtered, Walk.filtered]
  refine (hcall .expression i hi (by simp only [Call.level]; omega)).andThen
    (fun e he => by rw [he]; rfl) fun input j _ hx hij hj => ?_
  rw [hx]
  dsimp only
  exact (hcall.later (.filterRest input) hroom hij hj).last (fun e he => by rw [he]; rfl)
    fun e rest _ hx => by rw [hx]; rfl

theorem agrees_semicolons (hn : 32 * (tokens.length - i) ≤ n) :
    Agrees source tokens (.ok (startsWith ";" (tokens.drop i), skipSemicolons (tokens.drop i)))
      (Walk.semicolons tokens call i) := by
  rw [Walk.semicolons, bind_apply, Walk.optional_apply]
  cases hs : startsWith ";" (tokens.drop i) with
  | false =>
    rw [skipSemicolons_of_startsWith hs]
    exact .read hi
  | true =>
    obtain ⟨_, hdrop⟩ | ⟨t, _, hdrop, hlt⟩ := Walk.place_cases tokens i
    · rw [hdrop] at hs
      cases hs
    · rw [hdrop] at hs ⊢
      rw [skipSemicolons_cons hs]
      refine (hcall.later .semicolons hn (Nat.lt_succ_self i) hlt).bind (fun e he => ?_)
        fun more j hx hj => ?_
      · cases he
      · rw [(Prod.mk.inj (Except.ok.inj hx)).2]
        exact .read hj

theorem agrees_statements (separated : Bool) (hn : 32 * (tokens.length - i) + 21 ≤ n) :
    Agrees source tokens ((statements source separated (tokens.drop i)).map (·, []))
      (Walk.statements source tokens call separated i) := by
  have hroom : 32 * (tokens.length - i) ≤ n := by omega
  rw [Walk.statements, bind_apply, Walk.peek]
  obtain ⟨hpeek, hdrop⟩ | ⟨t, hpeek, hdrop, hlt⟩ := Walk.place_cases tokens i
  · have hend : Agrees source tokens (.ok (([] : List Expr), tokens.drop i)) (.ok [] i) := .read hi
    rw [hdrop] at hend ⊢
    rw [hpeek, statements]
    exact hend
  · have hcloser : startsWithCloser [t] = startsWithCloser (tokens.drop i) := by
      rw [hdrop]
      rfl
    rw [statements_eq source separated (by rw [hdrop]; rfl), hpeek]
    dsimp only
    rw [hcloser]
    split
    · exact .fail hi _
    · refine (hcall .filtered i hi hn).andThen (fun e he => by rw [he]; rfl)
        fun e j _ hx hij hj => ?_
      rw [hx]
      refine (hcall.later .semicolons hroom hij hj).bind (fun e he => by cases he)
        fun seen k hx hk => ?_
      obtain ⟨hseen, hskip⟩ := Prod.mk.inj (Except.ok.inj hx)
      -- There may be no semicolon; the next statement is later because this one had a token.
      have hjk := le_of_skipSemicolons hj hskip
      dsimp only [Outcome.plain, Except.bind]
      rw [hseen, hskip]
      split
      · exact .fail hk _
      · exact (hcall.later (.statements (separated || seen)) hroom (by omega) hk).toEnd (e :: ·)

theorem agrees_program (hn : 32 * (tokens.length - i) + 22 ≤ n) :
    Agrees source tokens ((program source (tokens.drop i)).map (·, []))
      (Walk.program call i) := by
  rw [program, Walk.program]
  refine (hcall .semicolons i hi (by simp only [Call.level]; omega)).bind (fun e he => ?_)
    fun separated j hx hj => ?_
  · cases he
  · obtain ⟨hstart, hskip⟩ := Prod.mk.inj (Except.ok.inj hx)
    have hij := le_of_skipSemicolons hi hskip
    rw [hstart, hskip]
    exact (hcall (.statements separated) j hj (by simp only [Call.level]; omega)).toEnd combine

end

/-! ## walks -/

/-- **A function whose calls agree agrees itself.** -/
theorem covers_body {n : Nat} {call : (c : Call) → Walk c.Result}
    (hcall : Covers source tokens n call) :
    Covers source tokens (n + 1) (Walk.body source tokens call) := by
  intro c i hi hn
  have hn := Nat.le_of_lt_succ hn
  cases c with
  | program => exact agrees_program hcall hi hn
  | statements separated => exact agrees_statements hcall hi separated hn
  | semicolons => exact agrees_semicolons hcall hi hn
  | filtered => exact agrees_filtered hcall hi hn
  | filterRest input => exact agrees_filterRest hcall hi input hn
  | filterArgs => exact agrees_filterArgs hcall hi hn
  | expression => exact agrees_expression hcall hi hn
  | conditional => exact agrees_conditional hcall hi hn
  | binary p => exact agrees_binary hcall hi p hn
  | operand p => exact agrees_operand hcall hi p hn
  | binaryRest p left => exact agrees_binaryRest hcall hi p left hn
  | unary => exact agrees_unary hcall hi hn
  | access => exact agrees_access hcall hi hn
  | accessRest start => exact agrees_accessRest hcall hi start hn
  | primary => exact agrees_primary hcall hi hn
  | arguments close => exact agrees_arguments hcall hi close hn
  | items => exact agrees_items hcall hi hn
  | entries => exact agrees_entries hcall hi hn
  | pairs => exact agrees_pairs hcall hi hn

theorem covers_run (source : String) (tokens : List Token) (budget : Nat) :
    Covers source tokens budget (Walk.run source tokens budget) := by
  induction budget with
  | zero => exact fun c i _ hn => absurd hn (Nat.not_lt_zero _)
  | succ budget ih => exact covers_body ih

/-- With a budget for all tokens and one more, no walk goes too deep. -/
theorem agrees_run (source : String) {budget : Nat}
    (hbudget : 32 * (tokens.length + 1) ≤ budget) (c : Call) (hi : i ≤ tokens.length) :
    Agrees source tokens (c.answer source (tokens.drop i)) (Walk.run source tokens budget c i) := by
  refine covers_run source tokens budget c i hi ?_
  have hlevel := c.level_lt
  omega

end

end TemplateExpr.Grammar
