import TemplateExpr.Expr.Evaluate
import TemplateExpr.Proofs.Expr.Formed
import TemplateExpr.Proofs.Grammar.Statements
import TemplateExpr.Proofs.Token.Extent

/-!
# Programs as sequences of statements

* `Expr.statements`            the statements of a program;
* `Expr.sequence_of_parse`     they are the sequence of its tokens;
* `Expr.filter_statement_unseparated`   where a statement of a chain is a filter, no semicolon
                               stands before it or right behind it;
* `Expr.evaluateChain_append`  statements are evaluated one list after the other;
* `Expr.parse_joined`          a semicolon between two programs runs one after the other.
-/

namespace TemplateExpr

namespace Expr

open Grammar (Sequence Derives combine startsWith)

/-! ## the statements of a program -/

def statements : Expr → List Expr
  | chain es => es
  | e => [e]

theorem statements_combine {es : List Expr} (h : ∀ e ∈ es, e.FormedStatement) :
    (combine es).statements = es := by
  unfold combine
  split
  · next e =>
    cases h e (by simp) with
    | plain he => cases he <;> rfl
    | filter => rfl
  · rfl

theorem FormedProgram.statements {e : Expr} (he : e.FormedProgram) :
    ∀ d ∈ e.statements, d.FormedStatement := by
  cases he with
  | chain _ hes => exact hes
  | statement he =>
    intro d hd
    have hself : (combine [e]).statements = [e] := statements_combine (by simpa using he)
    rw [show e.statements = [e] from hself, List.mem_singleton] at hd
    exact hd ▸ he

/-- The statements of a program are the sequence of its tokens. -/
theorem sequence_of_parse {source : String} {e : Expr} (parsed : Expr.parse source = .ok e) :
    ∃ ts, Token.scan source = .ok ts ∧ (∀ t ∈ ts, t.Scanned) ∧
      Sequence false ts e.statements ∧ combine e.statements = e := by
  obtain ⟨ts, hscan, hprogram⟩ := Expr.parse_eq_ok_iff.mp parsed
  have hscanned := scanned_of_scan hscan
  obtain ⟨es, hes, rfl⟩ :=
    (Grammar.toOption_program_iff fun t ht => (hscanned t ht).1).mp hprogram
  have hread := hes.toOption_statements (fun t ht => (hscanned t ht).1) source
  have hformed : ∀ e ∈ es, e.FormedStatement :=
    Grammar.formed_of_statements (fun t ht => hscanned t (List.dropWhile_subset _ ht)) hread
  rw [statements_combine hformed]
  exact ⟨ts, hscan, hscanned, hes, rfl⟩

/-! ## filters among statements -/

/-- A chain stands only at the top of a tree. -/
theorem eq_of_within_chain {e : Expr} {es : List Expr} (he : e.FormedProgram)
    (h : Within (chain es) e) : e = chain es := by
  have hstatement : ¬ (chain es).FormedStatement := by
    intro hformed
    cases hformed with
    | plain hplain => cases hplain
  cases h with
  | self => rfl
  | part hp hd =>
    cases he with
    | statement he => exact absurd (FormedStatement.within hd (he.part hp)) hstatement
    | chain _ hes => exact absurd (FormedStatement.within hd (hes _ hp)) hstatement

/-- **A filter among the statements of a chain has no semicolon before it or right behind it:** the
tokens up to its end are the phrases of the statements, side by side. -/
theorem filter_statement_unseparated {source : String} {e f : Expr} {before after : List Expr}
    (parsed : Expr.parse source = .ok e) (hchain : Within (chain (before ++ f :: after)) e)
    (hf : f.isFilter = true) :
    ∃ phrases rest, Token.scan source = .ok (phrases.flatten ++ rest) ∧
      List.Forall₂ (Derives .filtered) phrases (before ++ [f]) ∧ startsWith ";" rest = false := by
  obtain rfl := eq_of_within_chain (formed_of_parse parsed) hchain
  obtain ⟨ts, hscan, _, hsequence, _⟩ := sequence_of_parse parsed
  obtain ⟨_, phrases, rest, rfl, hphrases, hnext⟩ := hsequence.filter hf
  exact ⟨phrases, rest, hscan, hphrases, hnext⟩

/-- A filter between two statements that stand right beside it. -/
theorem filter_statement_unseparated_amid :
    Expr.parse "a b | f c" = .ok (chain [scope "a", filter (scope "b") "f" [], scope "c"]) ∧
      ∃ phrases rest, Token.scan "a b | f c" = .ok (phrases.flatten ++ rest) ∧
        List.Forall₂ (Derives .filtered) phrases [scope "a", filter (scope "b") "f" []] ∧
        startsWith ";" rest = false := by
  have parsed : Expr.parse "a b | f c" =
      .ok (chain [scope "a", filter (scope "b") "f" [], scope "c"]) := by cbv
  have within : Within (chain ([scope "a"] ++ filter (scope "b") "f" [] :: [scope "c"]))
      (chain [scope "a", filter (scope "b") "f" [], scope "c"]) := .self _
  exact ⟨parsed, filter_statement_unseparated parsed within rfl⟩

/-- Where statements stand side by side, a chain can have a filter among them. -/
theorem not_forall_chain_unfiltered :
    ¬ ∀ source e es, Expr.parse source = .ok e → Within (chain es) e →
      ∀ d ∈ es, d.isFilter = false := by
  intro h
  have parsed : Expr.parse "a | f b" =
      .ok (chain [filter (scope "a") "f" [], scope "b"]) := by cbv
  exact absurd (h _ _ _ parsed (.self _) (filter (scope "a") "f" []) (by simp)) (by decide)

/-! ## evaluation -/

section
variable {W : Type} (env : Embedding W) (filters : FilterLookup W) (scope : Value)

/-- The last value that is not null, or else what was there before. -/
theorem evaluateChain_eq (last : Value) (es : List Expr) :
    evaluateChain env filters scope last es = do
      let v ← evaluateChain env filters scope .null es
      return if v.isNull then last else v := by
  induction es generalizing last with
  | nil => simp [evaluateChain, Value.isNull]
  | cons e es ih =>
    rw [evaluateChain, evaluateChain, bind_assoc]
    congr 1
    funext v
    rw [ih, ih (if v.isNull then .null else v)]
    simp only [bind_assoc, pure_bind]
    congr 1
    funext w
    by_cases hw : w.isNull = true
    · by_cases hv : v.isNull = true
      · rw [if_pos hw, if_pos hw, if_pos hv, if_pos hv]
        rfl
      · rw [if_pos hw, if_pos hw, if_neg hv, if_neg hv, if_neg hv]
    · rw [if_neg hw, if_neg hw, if_neg hw]

theorem evaluateChain_append (last : Value) (es ds : List Expr) :
    evaluateChain env filters scope last (es ++ ds) =
      evaluateChain env filters scope last es >>= fun v =>
        evaluateChain env filters scope v ds := by
  induction es generalizing last with
  | nil => simp [evaluateChain]
  | cons e es ih =>
    rw [List.cons_append, evaluateChain, evaluateChain, bind_assoc]
    congr 1
    funext v
    exact ih _

theorem evaluate_combine (es : List Expr) :
    (combine es).evaluate env filters scope = evaluateChain env filters scope .null es := by
  unfold combine
  split
  · next e =>
    have hvalue : ∀ v : Value, (if v.isNull then Value.null else v) = v := by
      intro v
      cases v <;> rfl
    simp [evaluateChain, hvalue]
  · rw [evaluate]

end

/-! ## joining programs -/

/-- The tokens of two texts with a semicolon between them. -/
theorem scan_joined {source₁ source₂ : String} {ts us : List Token}
    (hts : Token.scan source₁ = .ok ts) (hus : Token.scan source₂ = .ok us) :
    ∃ vs, Token.scan (source₁ ++ ";" ++ source₂) = .ok vs ∧
      Grammar.Alike vs (ts ++ Token.ofSymbol ";" :: us) := by
  have hlexes : Lexes (source₁ ++ ";" ++ source₂).toList
      (ts.map Token.unplaced ++ Token.ofSymbol ";" :: us.map Token.unplaced) := by
    rw [String.toList_append, String.toList_append, List.append_assoc]
    refine (lexes_of_scan hts).append (.cons (by decide) _) ?_
    exact .plain (s := ";") rfl (by decide) (by decide) (lexes_of_scan hus)
  obtain ⟨vs, hvs, hmap⟩ := scan_of_lexes hlexes
  refine ⟨vs, hvs, ?_⟩
  rw [Grammar.Alike, hmap, List.map_append, List.map_cons]
  rfl

/-- **A semicolon between two programs is one after the other.** -/
theorem parse_joined {source₁ source₂ : String} {e₁ e₂ : Expr}
    (parsed₁ : Expr.parse source₁ = .ok e₁) (parsed₂ : Expr.parse source₂ = .ok e₂)
    (unfiltered₁ : ∀ d ∈ e₁.statements, d.isFilter = false)
    (unfiltered₂ : ∀ d ∈ e₂.statements, d.isFilter = false) :
    ∃ e, Expr.parse (source₁ ++ ";" ++ source₂) = .ok e ∧
      e.statements = e₁.statements ++ e₂.statements ∧
      ∀ {W : Type} (env : Embedding W) (filters : FilterLookup W) (scope : Value),
        e.evaluate env filters scope = do
          let v ← e₁.evaluate env filters scope
          let w ← e₂.evaluate env filters scope
          return if w.isNull then v else w := by
  obtain ⟨ts, hts, hscanned₁, hsequence₁, hcombine₁⟩ := sequence_of_parse parsed₁
  obtain ⟨us, hus, hscanned₂, hsequence₂, hcombine₂⟩ := sequence_of_parse parsed₂
  obtain ⟨vs, hvs, halike⟩ := scan_joined hts hus
  have hformed : ∀ t ∈ ts ++ Token.ofSymbol ";" :: us, Token.Formed t := by
    intro t ht
    rcases List.mem_append.mp ht with ht | ht
    · exact (hscanned₁ t ht).1
    · rcases List.mem_cons.mp ht with rfl | ht
      · exact fun hword => absurd hword (by simp [Token.ofSymbol])
      · exact (hscanned₂ t ht).1
  have hsequence := hsequence₁.append unfiltered₁ (t := Token.ofSymbol ";") rfl
    (hsequence₂.separate unfiltered₂ true)
  have hprogram : (Grammar.program source₁ (ts ++ Token.ofSymbol ";" :: us)).toOption =
      some (combine (e₁.statements ++ e₂.statements)) :=
    (Grammar.toOption_program_iff hformed).mpr ⟨_, hsequence, rfl⟩
  rw [← halike.program hformed source₁ (source₁ ++ ";" ++ source₂)] at hprogram
  refine ⟨_, Expr.parse_eq_ok_iff.mpr ⟨vs, hvs, hprogram⟩, ?_, ?_⟩
  · refine statements_combine fun d hd => ?_
    rcases List.mem_append.mp hd with hd | hd
    · exact (formed_of_parse parsed₁).statements d hd
    · exact (formed_of_parse parsed₂).statements d hd
  · intro W env filters scope
    rw [evaluate_combine, evaluateChain_append, ← evaluate_combine, hcombine₁]
    congr 1
    funext v
    rw [evaluateChain_eq, ← evaluate_combine, hcombine₂]

/-- An assignment and a name that reads what it wrote. -/
theorem parse_joined_assignment :
    Expr.parse "x = y" = .ok (assign (scope "x") (scope "y")) ∧ Expr.parse "x" = .ok (scope "x") ∧
      ∃ e, Expr.parse ("x = y" ++ ";" ++ "x") = .ok e ∧
        e.statements = [assign (scope "x") (scope "y"), scope "x"] ∧
        ∀ {W : Type} (env : Embedding W) (filters : FilterLookup W) (root : Value),
          e.evaluate env filters root = do
            let v ← (assign (scope "x") (scope "y")).evaluate env filters root
            let w ← (scope "x").evaluate env filters root
            return if w.isNull then v else w := by
  have parsed₁ : Expr.parse "x = y" = .ok (assign (scope "x") (scope "y")) := by cbv
  have parsed₂ : Expr.parse "x" = .ok (scope "x") := by cbv
  exact ⟨parsed₁, parsed₂, parse_joined parsed₁ parsed₂ (by simp [statements, isFilter])
    (by simp [statements, isFilter])⟩

end Expr

end TemplateExpr
