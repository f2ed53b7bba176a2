import TemplateExpr.Proofs.Expr.Parts
import TemplateExpr.Proofs.Token.Numbers

/-!
# The trees of source texts

* `Expr.Formed`             an expression of the grammar, with names, literals and targets as the
                            scanner and the grammar make them;
* `Expr.FormedStatement`    an expression, or a pipeline of filters over one;
* `Expr.FormedProgram`      a statement, or a chain of none or several;
* `Expr.formed_of_parse`    every tree of a source text is such a program;
* `Expr.FormedStatement.within`   so are the nodes of its statements.
-/

namespace TemplateExpr

open Grammar (reserved Derives Phrase)

/-- The values that literals stand for. -/
inductive Value.IsLiteral : Value → Prop where
  | null : IsLiteral null
  | bool (b : Bool) : IsLiteral (bool b)
  | number {n : Number} : n.IsLiteral → IsLiteral (ofNumber n)

inductive Expr.Formed : Expr → Prop where
  | scope {name} : isName name.toList = true → name ∉ reserved → Formed (scope name)
  | member {receiver name} : Formed receiver → isName name.toList = true →
      Formed (member receiver name)
  | keyed {receiver key} : Formed receiver → Formed key → Formed (keyed receiver key)
  | callScope {name args} : isName name.toList = true → name ∉ reserved →
      (∀ a ∈ args, Formed a) → Formed (callScope name args)
  | callMember {receiver name args} : Formed receiver → isName name.toList = true →
      (∀ a ∈ args, Formed a) → Formed (callMember receiver name args)
  | callFunction {callee args} : Formed callee → (∀ a ∈ args, Formed a) →
      Formed (callFunction callee args)
  | binary {op left right} : Formed left → Formed right → Formed (binary op left right)
  | not {operand} : Formed operand → Formed (not operand)
  | conditional {condition yes no} : Formed condition → Formed yes → Formed no →
      Formed (conditional condition yes no)
  | assign {target value} : Formed target → target.isAssignable = true → Formed value →
      Formed (assign target value)
  | literal {v} : v.IsLiteral → Formed (literal v)
  | str (s) : Formed (str s)
  | array {elements} : (∀ a ∈ elements, Formed a) → Formed (array elements)
  | object {keys values} : keys.length = values.length → (∀ a ∈ values, Formed a) →
      Formed (object keys values)

inductive Expr.FormedStatement : Expr → Prop where
  | plain {e} : Formed e → FormedStatement e
  | filter {input name args} : FormedStatement input → isName name.toList = true →
      (∀ a ∈ args, Formed a) → FormedStatement (filter input name args)

inductive Expr.FormedProgram : Expr → Prop where
  | statement {e} : FormedStatement e → FormedProgram e
  | chain {statements} : statements.length ≠ 1 → (∀ e ∈ statements, FormedStatement e) →
      FormedProgram (chain statements)

/-! ## trees of the grammar -/

/-- The token is one of a text. -/
def Token.Scanned (t : Token) : Prop :=
  t.Formed ∧ ∀ n, t.content = .number n → n.IsLiteral

theorem scanned_of_scan {source : String} {ts : List Token} (h : Token.scan source = .ok ts) :
    ∀ t ∈ ts, t.Scanned := by
  intro t ht
  have hl := lexes_of_scan h
  have hu : t.unplaced ∈ ts.map Token.unplaced := List.mem_map_of_mem ht
  exact ⟨formed_of_lexes hl t.unplaced hu, isLiteral_of_lexes hl t.unplaced hu⟩

namespace Grammar

/-- The trees of a kind of phrases are well formed. -/
def FormedTree : (φ : Phrase) → φ.Tree → Prop
  | .filtered, e => e.FormedStatement
  | .filterArgs, es | .arguments, es | .items, es => ∀ e ∈ es, Expr.Formed e
  | .entries, ps | .pairs, ps => ∀ p ∈ ps, Expr.Formed p.2
  | .expression, e | .conditional, e | .binary _, e | .operand _, e | .unary, e | .access _, e
  | .primary _, e => e.Formed

theorem isName_of_name? {t : Token} {n : String} (ht : t.Formed) (h : t.name? = some n) :
    isName n.toList = true := by
  unfold Token.name? at h
  split at h
  · next hw =>
    rw [Option.some.injEq] at h
    rw [← h]
    exact ht hw
  · simp at h

theorem formedTree_of_derives {φ : Phrase} {ts : List Token} {tree : φ.Tree}
    (h : Derives φ ts tree) (hs : ∀ t ∈ ts, t.Scanned) : FormedTree φ tree := by
  induction h with
  | noFilterArgs | noArguments | noEntries => simp [FormedTree]
  | plain _ ih => exact .plain (ih hs)
  | value _ ih | settled _ ih | single _ ih | unsigned _ ih | start _ ih => exact ih hs
  | tighter _ _ ih | tightest _ _ ih => exact ih hs
  | someArguments _ ih | someEntries _ ih => exact ih hs
  | plus _ _ ih => exact ih fun t ht => hs t (by simp [ht])
  | group _ _ _ ih => exact ih fun t ht => hs t (by simp [ht])
  | pipe _ _ hn _ ih iha =>
    exact .filter (ih fun t ht => hs t (by simp [ht])) (isName_of_name? (hs _ (by simp)).1 hn)
      (iha fun t ht => hs t (by simp [ht]))
  | filterArg _ _ _ ih ihs =>
    intro e he
    rcases List.mem_cons.mp he with rfl | he
    · exact ih fun t ht => hs t (by simp [ht])
    · exact ihs (fun t ht => hs t (by simp [ht])) e he
  | assign _ ha _ _ ih ihe =>
    exact .assign (ih fun t ht => hs t (by simp [ht])) ha (ihe fun t ht => hs t (by simp [ht]))
  | choice _ _ _ _ _ ih ihy ihn =>
    exact .conditional (ih fun t ht => hs t (by simp [ht])) (ihy fun t ht => hs t (by simp [ht]))
      (ihn fun t ht => hs t (by simp [ht]))
  | operation _ _ _ _ ih ihr =>
    exact .binary (ih fun t ht => hs t (by simp [ht])) (ihr fun t ht => hs t (by simp [ht]))
  | minus _ _ ih =>
    have hzero : (Number.int 0).IsLiteral := Int.le_refl 0
    exact .binary (.literal (.number hzero)) (ih fun t ht => hs t (by simp [ht]))
  | not _ _ ih => exact .not (ih fun t ht => hs t (by simp [ht]))
  | member _ _ hn ih =>
    exact .member (ih fun t ht => hs t (by simp [ht])) (isName_of_name? (hs _ (by simp)).1 hn)
  | callMember _ _ hn _ _ _ ih iha =>
    exact .callMember (ih fun t ht => hs t (by simp [ht])) (isName_of_name? (hs _ (by simp)).1 hn)
      (iha fun t ht => hs t (by simp [ht]))
  | keyed _ _ _ _ ih ihk =>
    exact .keyed (ih fun t ht => hs t (by simp [ht])) (ihk fun t ht => hs t (by simp [ht]))
  | callFunction _ _ _ _ ih iha =>
    exact .callFunction (ih fun t ht => hs t (by simp [ht])) (iha fun t ht => hs t (by simp [ht]))
  | null => exact .literal .null
  | true => exact .literal (.bool true)
  | false => exact .literal (.bool false)
  | array _ _ _ ih => exact .array (ih fun t ht => hs t (by simp [ht]))
  | object _ _ _ ih =>
    refine .object (by simp) fun a ha => ?_
    obtain ⟨p, hp, rfl⟩ := List.mem_map.mp ha
    exact ih (fun t ht => hs t (by simp [ht])) p hp
  | scope hw hr => exact .scope ((hs _ (by simp)).1 hw) hr
  | callScope hw hr _ _ _ ih =>
    exact .callScope ((hs _ (by simp)).1 hw) hr (ih fun t ht => hs t (by simp [ht]))
  | number hn => exact .literal (.number ((hs _ (by simp)).2 _ hn))
  | str => exact .str _
  | item _ ih =>
    intro e he
    rw [List.mem_singleton.mp he]
    exact ih hs
  | items _ _ _ ih ihs =>
    intro e he
    rcases List.mem_cons.mp he with rfl | he
    · exact ih fun t ht => hs t (by simp [ht])
    · exact ihs (fun t ht => hs t (by simp [ht])) e he
  | pair _ _ _ ih =>
    intro p hp
    rw [List.mem_singleton.mp hp]
    exact ih fun t ht => hs t (by simp [ht])
  | pairs _ _ _ _ _ ih ihs =>
    intro p hp
    rcases List.mem_cons.mp hp with rfl | hp
    · exact ih fun t ht => hs t (by simp [ht])
    · exact ihs (fun t ht => hs t (by simp [ht])) p hp

theorem formed_of_statements {source : String} {separated : Bool} {ts : List Token}
    {es : List Expr} (hs : ∀ t ∈ ts, t.Scanned)
    (h : (statements source separated ts).toOption = some es) :
    ∀ e ∈ es, e.FormedStatement := by
  induction hn : ts.length using Nat.strongRecOn generalizing ts separated es with
  | _ n ih =>
    cases ts with
    | nil =>
      rw [toOption_statements_nil, Option.some.injEq] at h
      simp [← h]
    | cons t tail =>
      rw [toOption_statements] at h
      split at h
      · simp at h
      · obtain ⟨⟨e, rest⟩, hr, h⟩ := Option.bind_eq_some_iff.mp h
        obtain ⟨us, hus, hd, _⟩ := sound_filtered hr
        have hlen := length_of_reading hr
        have hskip : (skipSemicolons rest).length ≤ rest.length :=
          Lexeme.length_dropWhile_le _ rest
        dsimp only at h
        split at h
        · simp at h
        · obtain ⟨es', hes', rfl⟩ := Option.map_eq_some_iff.mp h
          intro e' he'
          rcases List.mem_cons.mp he' with rfl | he'
          · exact formedTree_of_derives hd fun t ht => hs t (by rw [hus]; simp [ht])
          · refine ih _ (by omega) (fun t ht => hs t ?_) hes' rfl e' he'
            rw [hus]
            exact List.mem_append_right _ (List.dropWhile_subset _ ht)

theorem formed_of_combine {es : List Expr} (h : ∀ e ∈ es, e.FormedStatement) :
    (combine es).FormedProgram := by
  unfold combine
  split
  · exact .statement (h _ (by simp))
  · next hne =>
    refine .chain (fun hlen => ?_) h
    obtain ⟨e, rfl⟩ := List.length_eq_one_iff.mp hlen
    exact hne e rfl

end Grammar

/-- What a source text parses to is a program of its tokens. -/
theorem Expr.parse_eq_ok_iff {source : String} {e : Expr} :
    Expr.parse source = .ok e ↔
      ∃ ts, Token.scan source = .ok ts ∧ (Grammar.program source ts).toOption = some e := by
  unfold Expr.parse
  cases Token.scan source with
  | error x => simp
  | ok ts =>
    cases hp : Grammar.program source ts <;> simp [hp, Except.toOption]

theorem Expr.formed_of_parse {source : String} {e : Expr} (h : Expr.parse source = .ok e) :
    e.FormedProgram := by
  obtain ⟨ts, hts, hp⟩ := Expr.parse_eq_ok_iff.mp h
  rw [Grammar.toOption_program] at hp
  obtain ⟨es, hes, rfl⟩ := Option.map_eq_some_iff.mp hp
  refine Grammar.formed_of_combine (Grammar.formed_of_statements (fun t ht => ?_) hes)
  exact scanned_of_scan hts t (List.dropWhile_subset _ ht)

/-! ## the nodes of such trees -/

namespace Expr

theorem Formed.part {e p : Expr} (he : e.Formed) (hp : p ∈ e.parts) : p.Formed := by
  cases he with
  | scope | literal | str => simp [parts] at hp
  | member hr => simp only [parts, List.mem_singleton] at hp; exact hp ▸ hr
  | not ho => simp only [parts, List.mem_singleton] at hp; exact hp ▸ ho
  | keyed ha hb | binary ha hb =>
    simp only [parts, List.mem_cons, List.not_mem_nil, or_false] at hp
    rcases hp with rfl | rfl
    · exact ha
    · exact hb
  | assign ha _ hb =>
    simp only [parts, List.mem_cons, List.not_mem_nil, or_false] at hp
    rcases hp with rfl | rfl
    · exact ha
    · exact hb
  | conditional ha hb hc =>
    simp only [parts, List.mem_cons, List.not_mem_nil, or_false] at hp
    rcases hp with rfl | rfl | rfl
    · exact ha
    · exact hb
    · exact hc
  | callScope _ _ hes => exact hes p hp
  | array hes => exact hes p hp
  | object _ hes => exact hes p hp
  | callMember he _ hes | callFunction he hes =>
    rcases List.mem_cons.mp hp with rfl | hp
    · exact he
    · exact hes p hp

theorem FormedStatement.part {e p : Expr} (he : e.FormedStatement) (hp : p ∈ e.parts) :
    p.FormedStatement := by
  cases he with
  | plain he => exact .plain (he.part hp)
  | filter hi _ ha =>
    rcases List.mem_cons.mp hp with rfl | hp
    · exact hi
    · exact .plain (ha p hp)

theorem FormedStatement.within {d e : Expr} (h : Within d e) (he : e.FormedStatement) :
    d.FormedStatement := by
  induction h with
  | self => exact he
  | part hp _ ih => exact ih (he.part hp)

end Expr

end TemplateExpr
