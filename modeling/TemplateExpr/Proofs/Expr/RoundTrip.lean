import TemplateExpr.Proofs.Expr.Parts
import TemplateExpr.Proofs.Expr.Reread

/-!
# Which trees are read back from their texts

* `Expr.isMisread`               the nodes whose own text is read as another node, or not at all;
* `Expr.toOption_parse_render`   the text of a program is read as `reread` says;
* `Expr.parse_render_iff`        a tree is read back exactly if none of its nodes is misread.
-/

namespace TemplateExpr

namespace Expr

/-- An access behind a negation would go under it, arguments behind a name or a member would call
that, and a filter cannot stand between semicolons. -/
def isMisread : Expr → Bool
  | member (not _) _ | keyed (not _) _ | callMember (not _) _ _ => true
  | callFunction (not _) _ | callFunction (scope _) _ | callFunction (member ..) _ => true
  | chain statements => statements.any isFilter
  | _ => false

/-- No node of the tree is misread. -/
def Faithful (e : Expr) : Prop := ∀ d, Within d e → d.isMisread = false

theorem faithful_iff {e : Expr} :
    Faithful e ↔ e.isMisread = false ∧ ∀ p ∈ e.parts, Faithful p := forall_within_iff

/-! ## faithful trees are read back -/

theorem rereadAll_of_forall {es : List Expr} (h : ∀ e ∈ es, e.reread = some e) :
    rereadAll es = some es := by
  induction es with
  | nil => rw [rereadAll]
  | cons e es ih =>
    rw [rereadAll, h e (by simp), ih fun e' he' => h e' (by simp [he'])]
    rfl

theorem called_of_not_isMisread {callee : Expr} {args : List Expr}
    (h : (callFunction callee args).isMisread = false) :
    underNots (called args) callee = callFunction callee args := by
  cases callee <;> first | rfl | simp [isMisread] at h

theorem reread_of_faithful {e : Expr} (he : e.Formed) (h : Faithful e) : e.reread = some e := by
  induction he with
  | scope | literal | str => rw [reread]
  | @member receiver name _ _ ih =>
    obtain ⟨hself, hparts⟩ := faithful_iff.mp h
    rw [reread, ih (hparts _ (by simp [parts]))]
    cases receiver <;> first | rfl | simp [isMisread] at hself
  | @keyed receiver key _ _ ih ihk =>
    obtain ⟨hself, hparts⟩ := faithful_iff.mp h
    rw [reread, ih (hparts _ (by simp [parts])), ihk (hparts _ (by simp [parts]))]
    cases receiver <;> first | rfl | simp [isMisread] at hself
  | callScope _ _ _ iha =>
    obtain ⟨_, hparts⟩ := faithful_iff.mp h
    rw [reread, rereadAll_of_forall fun a ha => iha a ha (hparts a ha)]
    rfl
  | @callMember receiver name args _ _ _ ih iha =>
    obtain ⟨hself, hparts⟩ := faithful_iff.mp h
    rw [reread, ih (hparts _ (by simp [parts])),
      rereadAll_of_forall fun a ha => iha a ha (hparts a (by simp [parts, ha]))]
    cases receiver <;> first | rfl | simp [isMisread] at hself
  | @callFunction callee args _ _ ih iha =>
    obtain ⟨hself, hparts⟩ := faithful_iff.mp h
    rw [reread, ih (hparts _ (by simp [parts])),
      rereadAll_of_forall fun a ha => iha a ha (hparts a (by simp [parts, ha]))]
    simp only [Option.bind_some, Option.map_some, called_of_not_isMisread hself]
  | binary _ _ ihl ihr =>
    obtain ⟨_, hparts⟩ := faithful_iff.mp h
    rw [reread, ihl (hparts _ (by simp [parts])), ihr (hparts _ (by simp [parts]))]
    rfl
  | not _ ih =>
    obtain ⟨_, hparts⟩ := faithful_iff.mp h
    rw [reread, ih (hparts _ (by simp [parts]))]
    rfl
  | conditional _ _ _ ihc ihy ihn =>
    obtain ⟨_, hparts⟩ := faithful_iff.mp h
    rw [reread, ihc (hparts _ (by simp [parts])), ihy (hparts _ (by simp [parts])),
      ihn (hparts _ (by simp [parts]))]
    rfl
  | assign _ htarget _ iht ihv =>
    obtain ⟨_, hparts⟩ := faithful_iff.mp h
    rw [reread, iht (hparts _ (by simp [parts])), ihv (hparts _ (by simp [parts])),
      Option.bind_some, if_pos htarget]
    rfl
  | array _ ih =>
    obtain ⟨_, hparts⟩ := faithful_iff.mp h
    rw [reread, rereadAll_of_forall fun a ha => ih a ha (hparts a ha)]
    rfl
  | object _ _ ih =>
    obtain ⟨_, hparts⟩ := faithful_iff.mp h
    rw [reread, rereadAll_of_forall fun a ha => ih a ha (hparts a ha)]
    rfl

theorem reread_statement_of_faithful {e : Expr} (he : e.FormedStatement) (h : Faithful e) :
    e.reread = some e := by
  induction he with
  | plain he => exact reread_of_faithful he h
  | filter _ _ ha ih =>
    obtain ⟨_, hparts⟩ := faithful_iff.mp h
    have hargs := rereadAll_of_forall fun a ha' =>
      reread_of_faithful (ha a ha') (hparts a (by simp [parts, ha']))
    rw [reread, ih (hparts _ (by simp [parts])), hargs]
    rfl

theorem reread_program_of_faithful {e : Expr} (he : e.FormedProgram) (h : Faithful e) :
    e.reread = some e := by
  cases he with
  | statement he => exact reread_statement_of_faithful he h
  | @chain es _ hes =>
    obtain ⟨hself, hparts⟩ := faithful_iff.mp h
    have hany : es.any isFilter = false := hself
    rw [reread, hany, rereadAll_of_forall fun e he =>
      reread_statement_of_faithful (hes e he) (hparts e he)]
    rfl

/-! ## equality of trees -/

theorem equals_of_isLiteral (h : Heap) {v : Value} (hv : v.IsLiteral) : h.equals v v = true := by
  cases hv with
  | null => rfl
  | bool b =>
    show (b == b) = true
    exact beq_self_eq_true b
  | @number n hn =>
    cases n with
    | int n =>
      show (n == n) = true
      exact beq_self_eq_true n
    | float x =>
      obtain ⟨bits, hbits, rfl⟩ := hn
      exact Binary64.beq_withSign_self hbits

theorem equalLists_self {h : Heap} {es : List Expr} (hes : ∀ e ∈ es, e.equals h e = true) :
    equalLists h es es = true := by
  induction es with
  | nil => rw [equalLists]
  | cons e es ih =>
    rw [equalLists, hes e (by simp), ih fun e' he' => hes e' (by simp [he'])]
    rfl

/-- The trees of source texts equal themselves. -/
theorem equals_self (h : Heap) {e : Expr} (he : e.Formed) : e.equals h e = true := by
  induction he with
  | literal hv =>
    rw [equals]
    exact equals_of_isLiteral h hv
  | _ => simp_all [equals, equalLists_self]

theorem equals_self_statement (h : Heap) {e : Expr} (he : e.FormedStatement) :
    e.equals h e = true := by
  induction he with
  | plain he => exact equals_self h he
  | filter _ _ ha ih =>
    rw [equals, ih, equalLists_self fun a ha' => equals_self h (ha a ha')]
    simp

theorem equals_self_program (h : Heap) {e : Expr} (he : e.FormedProgram) :
    e.equals h e = true := by
  cases he with
  | statement he => exact equals_self_statement h he
  | chain _ hes =>
    rw [equals]
    exact equalLists_self fun e he => equals_self_statement h (hes e he)

/-! ## misread trees are not read back -/

theorem kind_of_equals {h : Heap} {a b : Expr} (heq : a.equals h b = true) : a.kind = b.kind := by
  unfold equals at heq
  split at heq <;> first | rfl | simp at heq

/-- What is read behind a tree stands right above it only if the tree is no negation. -/
theorem not_negation_of_equals {h : Heap} {f : Expr → Expr} {e r : Expr}
    (hk : e.kind ≠ "PrefixNot") (heq : e.equals h (underNots f r) = true) :
    (∀ r', r ≠ not r') ∧ e.equals h (f r) = true := by
  have hne : ∀ r', r ≠ not r' := by
    rintro r' rfl
    rw [underNots] at heq
    exact hk (kind_of_equals heq)
  rw [underNots_of_ne hne] at heq
  exact ⟨hne, heq⟩

theorem ne_not_of_reread {e r : Expr} (hr : e.reread = some r) (hne : ∀ r', r ≠ not r')
    (e' : Expr) : e ≠ not e' := by
  rintro rfl
  rw [reread] at hr
  obtain ⟨r', _, rfl⟩ := Option.map_eq_some_iff.mp hr
  exact hne r' rfl

theorem not_isMisread_access {receiver : Expr} (h : ∀ e, receiver ≠ not e) :
    (∀ name, (member receiver name).isMisread = false) ∧
      (∀ key, (keyed receiver key).isMisread = false) ∧
        ∀ name args, (callMember receiver name args).isMisread = false := by
  cases receiver with
  | not e => exact absurd rfl (h e)
  | _ => exact ⟨fun _ => rfl, fun _ => rfl, fun _ _ => rfl⟩

/-- Arguments read behind a tree call its value only if it is no name and no member. -/
theorem called_eq_callFunction {args : List Expr} {c : Expr}
    (hk : (called args c).kind = "CallFunction") :
    called args c = callFunction c args ∧ c.kind ≠ "AccessScope" ∧ c.kind ≠ "AccessMember" := by
  cases c <;> simp_all [called, kind]

theorem not_isMisread_callFunction {callee c : Expr} (hr : callee.reread = some c)
    (hne : ∀ r', c ≠ not r') (hs : c.kind ≠ "AccessScope") (hm : c.kind ≠ "AccessMember")
    (args : List Expr) : (callFunction callee args).isMisread = false := by
  have hcallee := ne_not_of_reread hr hne
  cases callee with
  | not e => exact absurd rfl (hcallee e)
  | scope name =>
    rw [reread, Option.some.injEq] at hr
    exact absurd (by rw [← hr]; rfl) hs
  | member receiver name =>
    rw [reread] at hr
    obtain ⟨r, _, rfl⟩ := Option.map_eq_some_iff.mp hr
    cases r with
    | not r => exact absurd rfl (hne _)
    | _ => exact absurd rfl hm
  | _ => rfl

theorem faithful_of_rereadAll {h : Heap} {es es' : List Expr}
    (ih : ∀ e ∈ es, ∀ e', e.reread = some e' → e.equals h e' = true → Faithful e)
    (hr : rereadAll es = some es') (heq : equalLists h es es' = true) :
    ∀ e ∈ es, Faithful e := by
  induction es generalizing es' with
  | nil => simp
  | cons e es ihes =>
    rw [rereadAll] at hr
    obtain ⟨e', he, hr⟩ := Option.bind_eq_some_iff.mp hr
    obtain ⟨es', hes, rfl⟩ := Option.map_eq_some_iff.mp hr
    rw [equalLists, Bool.and_eq_true] at heq
    intro d hd
    rcases List.mem_cons.mp hd with rfl | hd
    · exact ih d (by simp) e' he heq.1
    · exact ihes (fun e he => ih e (by simp [he])) hes heq.2 d hd

theorem faithful_of_reread {h : Heap} {e e' : Expr} (he : e.Formed) (hr : e.reread = some e')
    (heq : e.equals h e' = true) : Faithful e := by
  induction he generalizing e' with
  | scope | literal | str => exact faithful_iff.mpr ⟨rfl, by simp [parts]⟩
  | @member receiver name _ _ ih =>
    rw [reread] at hr
    obtain ⟨r, hrr, rfl⟩ := Option.map_eq_some_iff.mp hr
    obtain ⟨hne, heq⟩ := not_negation_of_equals (by simp [kind]) heq
    rw [equals, Bool.and_eq_true] at heq
    have hread := not_isMisread_access (ne_not_of_reread hrr hne)
    exact faithful_iff.mpr ⟨hread.1 name, by simpa [parts] using ih hrr heq.1⟩
  | @keyed receiver key _ _ ih ihk =>
    rw [reread] at hr
    obtain ⟨r, hrr, hr⟩ := Option.bind_eq_some_iff.mp hr
    obtain ⟨k, hrk, rfl⟩ := Option.map_eq_some_iff.mp hr
    obtain ⟨hne, heq⟩ := not_negation_of_equals (by simp [kind]) heq
    rw [equals, Bool.and_eq_true] at heq
    have hread := not_isMisread_access (ne_not_of_reread hrr hne)
    exact faithful_iff.mpr
      ⟨hread.2.1 key, by simpa [parts] using ⟨ih hrr heq.1, ihk hrk heq.2⟩⟩
  | callScope _ _ _ iha =>
    rw [reread] at hr
    obtain ⟨as, hra, rfl⟩ := Option.map_eq_some_iff.mp hr
    rw [equals, Bool.and_eq_true] at heq
    exact faithful_iff.mpr ⟨rfl, faithful_of_rereadAll (fun a ha _ => iha a ha) hra heq.2⟩
  | @callMember receiver name args _ _ _ ih iha =>
    rw [reread] at hr
    obtain ⟨r, hrr, hr⟩ := Option.bind_eq_some_iff.mp hr
    obtain ⟨as, hra, rfl⟩ := Option.map_eq_some_iff.mp hr
    obtain ⟨hne, heq⟩ := not_negation_of_equals (by simp [kind]) heq
    rw [equals, Bool.and_eq_true, Bool.and_eq_true] at heq
    have hargs := faithful_of_rereadAll (fun a ha _ => iha a ha) hra heq.2
    have hread := not_isMisread_access (ne_not_of_reread hrr hne)
    exact faithful_iff.mpr
      ⟨hread.2.2 name args, List.forall_mem_cons.mpr ⟨ih hrr heq.1.1, hargs⟩⟩
  | @callFunction callee args _ _ ih iha =>
    rw [reread] at hr
    obtain ⟨c, hrc, hr⟩ := Option.bind_eq_some_iff.mp hr
    obtain ⟨as, hra, rfl⟩ := Option.map_eq_some_iff.mp hr
    obtain ⟨hne, heq⟩ := not_negation_of_equals (by simp [kind]) heq
    obtain ⟨hcalled, hs, hm⟩ := called_eq_callFunction (kind_of_equals heq).symm
    rw [hcalled, equals, Bool.and_eq_true] at heq
    have hargs := faithful_of_rereadAll (fun a ha _ => iha a ha) hra heq.2
    exact faithful_iff.mpr ⟨not_isMisread_callFunction hrc hne hs hm args,
      List.forall_mem_cons.mpr ⟨ih hrc heq.1, hargs⟩⟩
  | binary _ _ ihl ihr =>
    rw [reread] at hr
    obtain ⟨l, hrl, hr⟩ := Option.bind_eq_some_iff.mp hr
    obtain ⟨r, hrr, rfl⟩ := Option.map_eq_some_iff.mp hr
    rw [equals, Bool.and_eq_true, Bool.and_eq_true] at heq
    exact faithful_iff.mpr ⟨rfl, by simpa [parts] using ⟨ihl hrl heq.1.2, ihr hrr heq.2⟩⟩
  | not _ ih =>
    rw [reread] at hr
    obtain ⟨r, hrr, rfl⟩ := Option.map_eq_some_iff.mp hr
    rw [equals] at heq
    exact faithful_iff.mpr ⟨rfl, by simpa [parts] using ih hrr heq⟩
  | conditional _ _ _ ihc ihy ihn =>
    rw [reread] at hr
    obtain ⟨c, hrc, hr⟩ := Option.bind_eq_some_iff.mp hr
    obtain ⟨y, hry, hr⟩ := Option.bind_eq_some_iff.mp hr
    obtain ⟨n, hrn, rfl⟩ := Option.map_eq_some_iff.mp hr
    rw [equals, Bool.and_eq_true, Bool.and_eq_true] at heq
    exact faithful_iff.mpr ⟨rfl,
      by simpa [parts] using ⟨ihc hrc heq.1.1, ihy hry heq.1.2, ihn hrn heq.2⟩⟩
  | assign _ _ _ iht ihv =>
    rw [reread] at hr
    obtain ⟨t, hrt, hr⟩ := Option.bind_eq_some_iff.mp hr
    split at hr
    · obtain ⟨v, hrv, rfl⟩ := Option.map_eq_some_iff.mp hr
      rw [equals, Bool.and_eq_true] at heq
      exact faithful_iff.mpr ⟨rfl, by simpa [parts] using ⟨iht hrt heq.1, ihv hrv heq.2⟩⟩
    · simp at hr
  | array _ ih =>
    rw [reread] at hr
    obtain ⟨as, hra, rfl⟩ := Option.map_eq_some_iff.mp hr
    rw [equals] at heq
    exact faithful_iff.mpr ⟨rfl, faithful_of_rereadAll (fun a ha _ => ih a ha) hra heq⟩
  | object _ _ ih =>
    rw [reread] at hr
    obtain ⟨as, hra, rfl⟩ := Option.map_eq_some_iff.mp hr
    rw [equals, Bool.and_eq_true] at heq
    exact faithful_iff.mpr ⟨rfl, faithful_of_rereadAll (fun a ha _ => ih a ha) hra heq.2⟩

theorem faithful_of_reread_statement {h : Heap} {e e' : Expr} (he : e.FormedStatement)
    (hr : e.reread = some e') (heq : e.equals h e' = true) : Faithful e := by
  induction he generalizing e' with
  | plain he => exact faithful_of_reread he hr heq
  | filter _ _ ha ih =>
    rw [reread] at hr
    obtain ⟨i, hri, hr⟩ := Option.bind_eq_some_iff.mp hr
    obtain ⟨as, hra, rfl⟩ := Option.map_eq_some_iff.mp hr
    rw [equals, Bool.and_eq_true, Bool.and_eq_true] at heq
    have hargs := faithful_of_rereadAll
      (fun a ha' _ => faithful_of_reread (ha a ha')) hra heq.2
    exact faithful_iff.mpr ⟨rfl, List.forall_mem_cons.mpr ⟨ih hri heq.1.1, hargs⟩⟩

theorem faithful_of_reread_program {h : Heap} {e e' : Expr} (he : e.FormedProgram)
    (hr : e.reread = some e') (heq : e.equals h e' = true) : Faithful e := by
  cases he with
  | statement he => exact faithful_of_reread_statement he hr heq
  | @chain es _ hes =>
    rw [reread] at hr
    split at hr
    · simp at hr
    · next hany =>
      obtain ⟨es', hres, rfl⟩ := Option.map_eq_some_iff.mp hr
      rw [equals] at heq
      exact faithful_iff.mpr ⟨Bool.eq_false_iff.mpr hany, faithful_of_rereadAll
        (fun e he _ => faithful_of_reread_statement (hes e he)) hres heq⟩

/-! ## reading a text back -/

/-- The text of a program parses to what its tree rereads as. -/
theorem toOption_parse_render (h : Heap) {e : Expr} (he : e.FormedProgram) :
    (Expr.parse (e.render h)).toOption = e.reread := by
  have hlexes := lexes_program h he
  obtain ⟨us, hscan, hus⟩ := scan_of_lexes hlexes
  have hself : ((e.spelling h).map Token.unplaced) = e.spelling h := by
    rw [← hus, List.map_map]
    rfl
  have halike : Grammar.Alike us (e.spelling h) := by
    rw [Grammar.Alike, hself, hus]
  have hparse : (Expr.parse (e.render h)).toOption =
      (Grammar.program (e.render h) us).toOption := by
    unfold Expr.parse
    rw [hscan]
    cases hp : Grammar.program (e.render h) us <;> simp [hp, Except.toOption]
  rw [hparse, halike.program (formed_of_lexes hlexes) (e.render h) (e.render h)]
  exact Grammar.toOption_program_spelling _ h he

theorem parse_render_of_faithful (h : Heap) {e : Expr} (he : e.FormedProgram) (hf : Faithful e) :
    Expr.parse (e.render h) = .ok e := by
  have hparse := toOption_parse_render h he
  rw [reread_program_of_faithful he hf] at hparse
  cases hr : Expr.parse (e.render h) with
  | error x => simp [hr, Except.toOption] at hparse
  | ok e' => rw [hr, Except.toOption, Option.some.injEq] at hparse; rw [hparse]

/-- A tree of a source text is read back from its own text exactly if no node in it is misread. -/
theorem parse_render_iff {source : String} {e : Expr} (parsed : Expr.parse source = .ok e)
    (h : Heap) :
    (∃ e', Expr.parse (e.render h) = .ok e' ∧ e.equals h e' = true) ↔
      ∀ d, Within d e → d.isMisread = false := by
  have he := formed_of_parse parsed
  constructor
  · rintro ⟨e', hparse, heq⟩
    have hread := toOption_parse_render h he
    rw [hparse] at hread
    exact faithful_of_reread_program he hread.symm heq
  · intro hf
    exact ⟨e, parse_render_of_faithful h he hf, equals_self_program h he⟩

/-- The parentheses of `(!a).b` are lost in its text, so it is not read back. -/
theorem parse_render_negated_receiver :
    Expr.parse "(!a).b" = .ok (member (not (scope "a")) "b") ∧
      ¬ ∃ e', Expr.parse ((member (not (scope "a")) "b").render .empty) = .ok e' ∧
        (member (not (scope "a")) "b").equals .empty e' = true := by
  have parsed : Expr.parse "(!a).b" = .ok (member (not (scope "a")) "b") := by cbv
  refine ⟨parsed, fun hback => ?_⟩
  have hself := (parse_render_iff parsed .empty).mp hback _ (.self _)
  exact absurd hself (by decide)

end Expr

end TemplateExpr
