import TemplateExpr.Proofs.Expr.Formed

/-!
# Every node of a source text's tree

The trees of source texts have their shape at every depth: names that are names, targets that can
be written to, chains only at the top and filters only in pipes.

* `Value.IsUnsigned`      what a literal holds has no sign;
* `Expr.FormedNode`       what a node says by itself is as the grammar makes it;
* `Expr.operands`         the parts of a node that are neither statements nor piped;
* `Expr.nodes_of_parse`   this holds of every node of the tree of a text.
-/

namespace TemplateExpr

/-! ## literals -/

/-- Null, a boolean or a number that is not below zero. -/
def Value.IsUnsigned : Value → Prop
  | null | bool _ => True
  | int n => 0 ≤ n
  | float x => x.isNaN = false ∧ 0 ≤ x
  | _ => False

theorem Value.IsLiteral.isUnsigned {v : Value} (hv : v.IsLiteral) : v.IsUnsigned := by
  cases hv with
  | null => trivial
  | bool b => trivial
  | @number n hn =>
    cases n with
    | int n => exact Int64.le_iff_toInt_le.mpr hn
    | float x =>
      obtain ⟨bits, hbits, rfl⟩ := hn
      exact ⟨Binary64.isNaN_withSign hbits, Binary64.zero_le_withSign hbits⟩

namespace Expr

/-! ## nodes -/

/-- What a node says by itself, apart from the trees below it. -/
def FormedNode : Expr → Prop
  | scope name | callScope name _ => isName name.toList = true ∧ name ∉ Grammar.reserved
  | member _ name | callMember _ name _ | filter _ name _ => isName name.toList = true
  | assign target _ =>
    (∃ name, target = scope name) ∨ (∃ receiver name, target = member receiver name) ∨
      ∃ receiver key, target = keyed receiver key
  | literal v => v.IsUnsigned
  | object keys values => keys.length = values.length
  | chain statements => statements.length = 0 ∨ 2 ≤ statements.length
  | _ => True

/-- The parts of a node, without the statements of a chain and the input of a filter. -/
def operands : Expr → List Expr
  | chain _ => []
  | filter _ _ args => args
  | e => e.parts

theorem isAssignable_cases {e : Expr} (h : e.isAssignable = true) :
    (∃ name, e = scope name) ∨ (∃ receiver name, e = member receiver name) ∨
      ∃ receiver key, e = keyed receiver key := by
  cases e with
  | scope name => exact .inl ⟨name, rfl⟩
  | member receiver name => exact .inr (.inl ⟨receiver, name, rfl⟩)
  | keyed receiver key => exact .inr (.inr ⟨receiver, key, rfl⟩)
  | _ => simp [isAssignable] at h

theorem Formed.formedNode {e : Expr} (he : e.Formed) : e.FormedNode := by
  cases he with
  | scope hn hr => exact ⟨hn, hr⟩
  | callScope hn hr => exact ⟨hn, hr⟩
  | member _ hn => exact hn
  | callMember _ hn => exact hn
  | assign _ ha => exact isAssignable_cases ha
  | literal hv => exact hv.isUnsigned
  | object hlen => exact hlen
  | keyed | callFunction | binary | not | conditional | str | array => trivial

theorem FormedStatement.formedNode {e : Expr} (he : e.FormedStatement) : e.FormedNode := by
  cases he with
  | plain he => exact he.formedNode
  | filter _ hn => exact hn

/-! ## where chains and filters stand -/

theorem not_formedStatement_chain (es : List Expr) : ¬ (chain es).FormedStatement := by
  intro h
  cases h with
  | plain h => cases h

theorem not_formed_filter (input : Expr) (name : String) (args : List Expr) :
    ¬ (filter input name args).Formed := by
  intro h
  cases h

/-- The operands of a statement are expressions. -/
theorem FormedStatement.operand {e p : Expr} (he : e.FormedStatement) (hp : p ∈ e.operands) :
    p.Formed := by
  cases he with
  | filter _ _ ha => exact ha p hp
  | plain he =>
    have hparts : e.operands = e.parts := by
      cases he <;> rfl
    exact he.part (hparts ▸ hp)

/-- Statements, and a chain of them, have the parts of statements. -/
theorem FormedProgram.part {e p : Expr} (he : e.FormedProgram) (hp : p ∈ e.parts) :
    p.FormedStatement := by
  cases he with
  | statement he => exact he.part hp
  | chain _ hes => exact hes p hp

theorem FormedProgram.formedNode {e : Expr} (he : e.FormedProgram) : e.FormedNode := by
  cases he with
  | statement he => exact he.formedNode
  | @chain es hlen _ =>
    show es.length = 0 ∨ 2 ≤ es.length
    omega

theorem FormedProgram.operand {e p : Expr} (he : e.FormedProgram) (hp : p ∈ e.operands) :
    p.Formed := by
  cases he with
  | statement he => exact he.operand hp
  | chain => exact absurd hp List.not_mem_nil

/-- Every node of a program is one itself. -/
theorem FormedProgram.within {d e : Expr} (h : Within d e) (he : e.FormedProgram) :
    d.FormedProgram := by
  cases h with
  | self => exact he
  | part hp hd => exact .statement (FormedStatement.within hd (he.part hp))

/-- **The tree of a source text is well formed at every node.** No chain stands below another node,
and a filter does only as a statement of a chain or as the input of a filter. -/
theorem nodes_of_parse {source : String} {e d : Expr} (parsed : Expr.parse source = .ok e)
    (within : Within d e) :
    d.FormedNode ∧ (∀ statements, chain statements ∉ d.parts) ∧
      ∀ input name args, filter input name args ∉ d.operands := by
  have hd : d.FormedProgram := FormedProgram.within within (formed_of_parse parsed)
  refine ⟨hd.formedNode, fun statements hmem => ?_, fun input name args hmem => ?_⟩
  · exact not_formedStatement_chain statements (hd.part hmem)
  · exact not_formed_filter input name args (hd.operand hmem)

/-- An assignment in a pipe of a chain, whose target is in parentheses. -/
theorem nodes_of_parse_target :
    Expr.parse "((a)[1]) = 2 | f c" =
        .ok (chain [filter (assign (keyed (scope "a") (literal (.int 1))) (literal (.int 2))) "f" [],
          scope "c"]) ∧
      (assign (keyed (scope "a") (literal (.int 1))) (literal (.int 2))).FormedNode := by
  have parsed : Expr.parse "((a)[1]) = 2 | f c" =
      .ok (chain [filter (assign (keyed (scope "a") (literal (.int 1))) (literal (.int 2))) "f" [],
        scope "c"]) := by cbv
  refine ⟨parsed, (nodes_of_parse parsed ?_).1⟩
  exact .part (.head _) (.part (.head _) (.self _))

end Expr

end TemplateExpr
