import TemplateExpr.Proofs.Grammar.Soundness

/-!
# The grammar and its functions agree

* `Complete.pipe`, ...          one rule for each production;
* `complete`                    each function reads the phrases of its kind;
* `reading_filtered_iff`        a pipeline is read exactly where the grammar has one that nothing
                                extends;
* `filtered_decides_grammar`    reading decides the grammar, and takes the longest pipeline.
-/

namespace TemplateExpr.Grammar

/-! ## operators and accesses that end -/

theorem operator?_eq_none {p : Precedence} {t : Token} {ts : List Token}
    (h : Stops (levelMarks p) (t :: ts)) : operator? p t = none := by
  unfold operator?
  rw [List.find?_eq_none]
  intro op hop hs
  have := h op.symbol (List.mem_map_of_mem hop)
  rw [after_cons_self hs] at this
  simp at this

theorem operator?_eq_some {p : Precedence} {t : Token} {op : BinOp} (hop : op ∈ p.operators)
    (hs : t.isSpelled op.symbol = true) : operator? p t = some op := by
  cases h : operator? p t with
  | none =>
    have := List.find?_eq_none.mp h op hop
    exact absurd hs this
  | some op' =>
    obtain ⟨_, hs'⟩ := mem_operators_of_operator? h
    rw [BinOp.symbol_injective (isSpelled_unique hs' hs)]

theorem reading_binaryRest_stop (source : String) {p : Precedence} (left : Expr) {ts : List Token}
    (h : Stops (levelMarks p) ts) : (binaryRest source p left ts).reading = some (left, ts) := by
  cases ts with
  | nil => exact reading_binaryRest_nil source p left
  | cons t rest => rw [reading_binaryRest_cons, operator?_eq_none h]

theorem reading_accessRest_stop (source : String) (start : Expr) {ts : List Token}
    (h : Stops accessMarks ts) : (accessRest source start ts).reading = some (start, ts) := by
  rw [reading_accessRest, h "." (by decide), h "[" (by decide), h "(" (by decide)]

/-! ## phrases by their first token -/

section
variable (source : String)

theorem reading_unary_not {t : Token} (h : t.isSpelled "!" = true) (ts : List Token) :
    (unary source (t :: ts)).reading =
      (unary source ts).reading.map fun (e, rest) => (.not e, rest) := by
  rw [reading_unary, after_cons_of_ne h (by decide), after_cons_of_ne h (by decide),
    after_cons_self h]

theorem reading_accessRest_dot (start : Expr) {dot t : Token} {n : String}
    (hd : dot.isSpelled "." = true) (hn : t.name? = some n) (ts : List Token) :
    (accessRest source start (dot :: t :: ts)).reading =
      match after "(" ts with
      | none => (accessRest source (.member start n) ts).reading
      | some rest =>
        (arguments source ")" rest).reading.bind fun (args, rest₁) =>
          (accessRest source (.callMember start n args) rest₁).reading := by
  rw [reading_accessRest, after_cons_self hd]
  cases h : after "(" ts with
  | none => simp only [reading_name_cons, hn, Option.map_some, Option.bind_some, h]
  | some rest => simp only [reading_name_cons, hn, Option.map_some, Option.bind_some, h]

theorem reading_accessRest_bracket (start : Expr) {t : Token} (h : t.isSpelled "[" = true)
    (ts : List Token) :
    (accessRest source start (t :: ts)).reading =
      (expression source ts).reading.bind fun (key, rest) =>
        (after "]" rest).bind fun rest₁ => (accessRest source (.keyed start key) rest₁).reading := by
  rw [reading_accessRest, after_cons_of_ne h (by decide), after_cons_self h]

theorem reading_accessRest_paren (start : Expr) {t : Token} (h : t.isSpelled "(" = true)
    (ts : List Token) :
    (accessRest source start (t :: ts)).reading =
      (arguments source ")" ts).reading.bind fun (args, rest) =>
        (accessRest source (.callFunction start args) rest).reading := by
  rw [reading_accessRest, after_cons_of_ne h (by decide), after_cons_of_ne h (by decide),
    after_cons_self h]

theorem reading_primary_bracket {t : Token} (h : t.isSpelled "[" = true) (ts : List Token) :
    (primary source (t :: ts)).reading =
      (arguments source "]" ts).reading.map fun (elements, rest) => (.array elements, rest) := by
  rw [reading_primary, after_cons_of_ne h (by decide), after_cons_self h]

theorem reading_primary_brace {t : Token} (h : t.isSpelled "\x7b" = true) (ts : List Token) :
    (primary source (t :: ts)).reading =
      (entries source ts).reading.map fun (pairs, rest) =>
        (.object (pairs.map Prod.fst) (pairs.map Prod.snd), rest) := by
  rw [reading_primary, after_cons_of_ne h (by decide), after_cons_of_ne h (by decide),
    after_cons_self h]

variable {source}

theorem reading_unary_of_unlike {ts : List Token} (h : StartsUnlike signs ts) :
    (unary source ts).reading = (access source ts).reading := by
  rw [reading_unary, h.after_eq_none (by decide), h.after_eq_none (by decide),
    h.after_eq_none (by decide)]

theorem reading_primary_of_unlike {ts : List Token}
    (h : StartsUnlike ["(", "[", "\x7b"] ts) : (primary source ts).reading = atom source ts := by
  rw [reading_primary, h.after_eq_none (by decide), h.after_eq_none (by decide),
    h.after_eq_none (by decide)]

end

/-! ## phrases in brackets -/

section
variable {source : String}

theorem bracketed_append (o c : Token) (ts rest : List Token) :
    o :: (ts ++ [c]) ++ rest = o :: (ts ++ c :: rest) := by simp

theorem reading_primary_group {o c : Token} {ts rest : List Token} {r : Option Expr}
    (ho : o.isSpelled "(" = true) (hc : c.isSpelled ")" = true)
    (h : (expression source ts).reading = r.map (·, c :: rest)) :
    (primary source (o :: ts)).reading = r.map (·, rest) := by
  rw [reading_primary, after_cons_self ho]
  simp only [h]
  cases r with
  | none => rfl
  | some e => simp only [Option.map_some, Option.bind_some, after_cons_self hc]

/-- Items are read up to the bracket that closes them. -/
theorem reading_arguments_of_items {close : String} {c : Token} {ts : List Token}
    {r : Option (List Expr)} (hclose : close = ")" ∨ close = "]")
    (hc : c.isSpelled close = true) (hstart : StartsUnlike closers ts)
    (h : ∀ rest, Stops expressionMarks rest → after "," rest = none →
      (items source (ts ++ rest)).reading = r.map (·, rest)) (rest : List Token) :
    (arguments source close (ts ++ c :: rest)).reading = r.map (·, rest) := by
  have hmem : close ∈ closers := by rcases hclose with rfl | rfl <;> decide
  have hstop : Stops expressionMarks (c :: rest) :=
    .cons hc (by rcases hclose with rfl | rfl <;> decide) rest
  have hcomma : after "," (c :: rest) = none :=
    after_cons_of_ne hc (by rcases hclose with rfl | rfl <;> decide) rest
  rw [reading_arguments, (hstart.append _).after_eq_none hmem, h _ hstop hcomma]
  cases r with
  | none => rfl
  | some es => simp only [Option.map_some, Option.bind_some, after_cons_self hc]

theorem reading_entries_of_pairs {c : Token} {ts : List Token}
    {r : Option (List (String × Expr))} (hc : c.isSpelled "\x7d" = true)
    (hstart : StartsUnlike closers ts)
    (h : ∀ rest, Stops expressionMarks rest → after "," rest = none →
      (pairs source (ts ++ rest)).reading = r.map (·, rest)) (rest : List Token) :
    (entries source (ts ++ c :: rest)).reading = r.map (·, rest) := by
  have hcomma : after "," (c :: rest) = none := after_cons_of_ne hc (by decide) rest
  rw [reading_entries, (hstart.append _).after_eq_none (by decide),
    h _ (.cons hc (by decide) rest) hcomma]
  cases r with
  | none => rfl
  | some ps => simp only [Option.map_some, Option.bind_some, after_cons_self hc]

end

/-! ## completeness -/

/-- The function of a kind of phrases reads such a phrase, whatever does not extend it behind. -/
def Complete (source : String) : (φ : Phrase) → List Token → φ.Tree → Prop
  | .filtered, ts, e => ∀ rest, PipelineStops e rest →
      (filtered source (ts ++ rest)).reading = (filterRest source e rest).reading
  | .filterArgs, ts, es => ∀ rest, (es ≠ [] → Stops expressionMarks rest) → after ":" rest = none →
      (filterArgs source (ts ++ rest)).reading = some (es, rest)
  | .expression, ts, e => ∀ rest, Stops expressionMarks rest →
      (expression source (ts ++ rest)).reading = some (e, rest)
  | .conditional, ts, e => ∀ rest, Stops conditionalMarks rest →
      e.isAssignable = true ∨ after "=" rest = none →
      (conditional source (ts ++ rest)).reading = some (e, rest)
  | .binary p, ts, e => ∀ rest, Stops (operandMarks p) rest →
      (binary source p (ts ++ rest)).reading = (binaryRest source p e rest).reading
  | .operand p, ts, e => ∀ rest, Stops (operandMarks p) rest →
      (operand source p (ts ++ rest)).reading = some (e, rest)
  | .unary, ts, e => ∀ rest, Stops accessMarks rest →
      (unary source (ts ++ rest)).reading = some (e, rest)
  | .access b, ts, e => ∀ rest, (b = true → after "(" rest = none) →
      (access source (ts ++ rest)).reading = (accessRest source e rest).reading
  | .primary b, ts, e => ∀ rest, (b = true → after "(" rest = none) →
      (primary source (ts ++ rest)).reading = some (e, rest)
  | .arguments, ts, es => ∀ close c rest, c.isSpelled close = true → close = ")" ∨ close = "]" →
      (arguments source close (ts ++ c :: rest)).reading = some (es, rest)
  | .items, ts, es => ∀ rest, Stops expressionMarks rest → after "," rest = none →
      (items source (ts ++ rest)).reading = some (es, rest)
  | .entries, ts, ps => ∀ c rest, c.isSpelled "\x7d" = true →
      (entries source (ts ++ c :: rest)).reading = some (ps, rest)
  | .pairs, ts, ps => ∀ rest, Stops expressionMarks rest → after "," rest = none →
      (pairs source (ts ++ rest)).reading = some (ps, rest)

theorem operandMarks_tighter {p q : Precedence} (h : p.tighter? = some q) :
    operandMarks q ++ levelMarks q ⊆ operandMarks p := by
  cases p <;> simp only [Precedence.tighter?, Option.some.injEq, reduceCtorEq] at h <;>
    subst h <;> decide

theorem accessMarks_subset (p : Precedence) : accessMarks ⊆ operandMarks p :=
  List.subset_append_left _ _

theorem levelMark_not_mem_operandMarks {p : Precedence} {op : BinOp} (h : op ∈ p.operators) :
    op.symbol ∉ operandMarks p := by
  have all : ∀ op ∈ p.operators, op.symbol ∉ operandMarks p := by cases p <;> decide
  exact all op h

theorem constant?_of_isSpelled {t : Token} {s : String} (h : t.isSpelled s = true) :
    constant? t = if s = "null" ∨ s = "undefined" then some .null
      else if s = "true" then some (.bool true)
      else if s = "false" then some (.bool false) else none := by
  have key : ∀ s', t.isSpelled s' = decide (s = s') := by
    intro s'
    by_cases e : s = s'
    · rw [← e, h]; simp
    · rw [decide_eq_false e]
      cases h' : t.isSpelled s' with
      | false => rfl
      | true => exact absurd (isSpelled_unique h h') e
  unfold constant?
  simp only [key, Bool.or_eq_true, decide_eq_true_eq]

theorem constant?_of_word {t : Token} (hw : t.content = .word) (hr : t.text ∉ reserved) :
    constant? t = none := by
  have ht : t.isSpelled t.text = true := by simp [Token.isSpelled, hw]
  rw [constant?_of_isSpelled ht]
  simp only [reserved, List.mem_cons, not_or] at hr
  simp [hr]

theorem constant?_of_literal {t : Token} (h : ∀ s, t.isSpelled s = false) : constant? t = none := by
  simp [constant?, h]

/-! ## one rule for each production -/

namespace Complete

section
variable {source : String} {ts us vs : List Token} {t o c : Token} {e : Expr}

/-! ### pipelines -/

theorem plain (he : e.isFilter = false) (h : Complete source .expression ts e) :
    Complete source .filtered ts e := by
  intro rest hr
  rw [reading_filtered, h rest ((pipelineStops_of_not_filter he rest).mp hr), Option.bind_some]

theorem pipe {input : Expr} {n : String} {args : List Expr} {bar : Token}
    (h : Complete source .filtered ts input) (hbar : bar.isSpelled "|" = true)
    (hn : t.name? = some n) (ha : Complete source .filterArgs us args) :
    Complete source .filtered (ts ++ bar :: t :: us) (.filter input n args) := by
  intro rest hr
  have hstop : PipelineStops input (bar :: t :: (us ++ rest)) :=
    .of_stops (.cons hbar (by decide) _) input
  obtain ⟨hr₁, hr₂⟩ := (pipelineStops_filter _ _ _ _).mp hr
  rw [List.append_assoc, List.cons_append, List.cons_append, h _ hstop, reading_filterRest,
    after_cons_self hbar]
  simp only [reading_name_cons, hn, Option.map_some, Option.bind_some, ha rest hr₁ hr₂]

theorem noFilterArgs : Complete source .filterArgs [] [] := by
  intro rest _ hc
  rw [List.nil_append, reading_filterArgs, hc]

theorem filterArg {es : List Expr} {colon : Token} (hs : colon.isSpelled ":" = true)
    (h : Complete source .expression ts e) (hd : Derives .filterArgs us es)
    (hes : Complete source .filterArgs us es) :
    Complete source .filterArgs (colon :: (ts ++ us)) (e :: es) := by
  intro rest hr hc
  have hnext : Stops expressionMarks (us ++ rest) := by
    cases hd with
    | noFilterArgs => exact hr (by simp)
    | filterArg hs' => exact .cons hs' (by decide) _
  have hrest := hes rest (fun _ => hr (by simp)) hc
  rw [List.cons_append, List.append_assoc, reading_filterArgs, after_cons_self hs]
  simp only [h _ hnext, Option.bind_some, hrest, Option.map_some]

/-! ### expressions -/

theorem value (h : Complete source .conditional ts e) : Complete source .expression ts e := by
  intro rest hr
  have hc := h rest (hr.mono (List.subset_append_left _ _)) (.inr (hr "=" (by decide)))
  rw [reading_expression, hc]
  simp only [Option.bind_some, hr "=" (by decide)]

theorem assign {target : Expr} {eq : Token} (h : Complete source .conditional ts target)
    (ha : target.isAssignable = true) (hs : eq.isSpelled "=" = true)
    (he : Complete source .expression us e) :
    Complete source .expression (ts ++ eq :: us) (.assign target e) := by
  intro rest hr
  have hc := h (eq :: (us ++ rest)) (.cons hs (by decide) _) (.inl ha)
  rw [List.append_assoc, List.cons_append, reading_expression, hc]
  simp only [Option.bind_some, after_cons_self hs, if_pos ha, he rest hr, Option.map_some]

theorem settled (h : Complete source (.binary .disjunction) ts e) :
    Complete source .conditional ts e := by
  intro rest hr _
  rw [reading_conditional, h rest (hr.mono (by decide)),
    reading_binaryRest_stop _ _ (hr.mono (by decide))]
  simp only [Option.bind_some, hr "?" (by decide)]

theorem choice {c y n : Expr} {mark colon : Token}
    (h : Complete source (.binary .disjunction) ts c) (hm : mark.isSpelled "?" = true)
    (hy : Complete source .expression us y) (hc : colon.isSpelled ":" = true)
    (hn : Complete source .expression vs n) :
    Complete source .conditional (ts ++ mark :: (us ++ colon :: vs)) (.conditional c y n) := by
  intro rest hr ha
  -- what is no target is not followed by an assignment
  have hend : Stops expressionMarks rest := by
    intro s hs
    rcases List.mem_append.mp hs with hs | hs
    · exact hr s hs
    · rcases ha with ha | ha
      · simp [Expr.isAssignable] at ha
      · rw [List.mem_singleton.mp hs, ha]
  have hb := h (mark :: (us ++ colon :: (vs ++ rest))) (.cons hm (by decide) _)
  have hyes := hy (colon :: (vs ++ rest)) (.cons hc (by decide) _)
  rw [List.append_assoc, List.cons_append, List.append_assoc, List.cons_append,
    reading_conditional, hb, reading_binaryRest_stop _ _ (.cons hm (by decide) _)]
  simp only [Option.bind_some, after_cons_self hm, hyes, after_cons_self hc, hn rest hend,
    Option.map_some]

/-! ### levels and signs -/

theorem single {p : Precedence} (h : Complete source (.operand p) ts e) :
    Complete source (.binary p) ts e := by
  intro rest hr
  rw [reading_binary, h rest hr, Option.bind_some]

theorem operation {p : Precedence} {l r : Expr} {op : BinOp}
    (hl : Complete source (.binary p) ts l) (hop : op ∈ p.operators)
    (hs : t.isSpelled op.symbol = true) (hr : Complete source (.operand p) us r) :
    Complete source (.binary p) (ts ++ t :: us) (.binary op l r) := by
  intro rest hrest
  have hleft := hl (t :: (us ++ rest)) (.cons hs (levelMark_not_mem_operandMarks hop) _)
  rw [List.append_assoc, List.cons_append, hleft, reading_binaryRest_cons,
    operator?_eq_some hop hs]
  simp only [hr rest hrest, Option.bind_some]

theorem tighter {p q : Precedence} (hq : p.tighter? = some q)
    (h : Complete source (.binary q) ts e) : Complete source (.operand p) ts e := by
  intro rest hr
  have hstop : Stops (operandMarks q ++ levelMarks q) rest := hr.mono (operandMarks_tighter hq)
  rw [reading_operand, hq]
  simp only [h rest (hstop.mono (List.subset_append_left _ _))]
  exact reading_binaryRest_stop _ _ (hstop.mono (List.subset_append_right _ _))

theorem tightest {p : Precedence} (hp : p.tighter? = none) (h : Complete source .unary ts e) :
    Complete source (.operand p) ts e := by
  intro rest hr
  rw [reading_operand, hp]
  exact h rest (hr.mono (accessMarks_subset _))

theorem plus (hs : t.isSpelled "+" = true) (h : Complete source .unary ts e) :
    Complete source .unary (t :: ts) e := by
  intro rest hr
  rw [List.cons_append, reading_unary, after_cons_self hs]
  exact h rest hr

theorem minus (hs : t.isSpelled "-" = true) (h : Complete source .unary ts e) :
    Complete source .unary (t :: ts) (.binary (.arith .subtract) (.literal (.int 0)) e) := by
  intro rest hr
  rw [List.cons_append, reading_unary, after_cons_of_ne hs (by decide), after_cons_self hs]
  simp only [h rest hr, Option.map_some]

theorem not (hs : t.isSpelled "!" = true) (h : Complete source .unary ts e) :
    Complete source .unary (t :: ts) (.not e) := by
  intro rest hr
  rw [List.cons_append, reading_unary_not source hs, h rest hr, Option.map_some]

theorem unsigned {b : Bool} (hstart : StartsUnlike signs ts)
    (h : Complete source (.access b) ts e) : Complete source .unary ts e := by
  intro rest hr
  rw [reading_unary_of_unlike (hstart.append rest), h rest fun _ => hr "(" (by decide),
    reading_accessRest_stop source e hr]

/-! ### accesses -/

theorem start {b : Bool} (h : Complete source (.primary b) ts e) :
    Complete source (.access b) ts e := by
  intro rest hr
  rw [reading_access, h rest hr, Option.bind_some]

theorem member {b : Bool} {n : String} {dot : Token}
    (h : Complete source (.access b) ts e) (hd : dot.isSpelled "." = true)
    (hn : t.name? = some n) : Complete source (.access true) (ts ++ [dot, t]) (.member e n) := by
  intro rest hr
  have hb := h (dot :: t :: rest) fun _ => after_cons_of_ne hd (by decide) _
  rw [List.append_assoc, List.cons_append, List.singleton_append, hb,
    reading_accessRest_dot source e hd hn, hr rfl]

theorem callMember {b : Bool} {n : String} {args : List Expr} {dot : Token}
    (h : Complete source (.access b) ts e) (hd : dot.isSpelled "." = true) (hn : t.name? = some n)
    (ho : o.isSpelled "(" = true) (ha : Complete source .arguments us args)
    (hc : c.isSpelled ")" = true) :
    Complete source (.access false) (ts ++ dot :: t :: o :: (us ++ [c]))
      (.callMember e n args) := by
  intro rest _
  have hb := h (dot :: t :: o :: (us ++ c :: rest)) fun _ => after_cons_of_ne hd (by decide) _
  rw [List.append_assoc, List.cons_append, List.cons_append, bracketed_append]
  rw [hb, reading_accessRest_dot source e hd hn, after_cons_self ho]
  simp only [ha ")" c rest hc (.inl rfl), Option.bind_some]

theorem keyed {b : Bool} {key : Expr} (h : Complete source (.access b) ts e)
    (ho : o.isSpelled "[" = true) (hk : Complete source .expression us key)
    (hc : c.isSpelled "]" = true) :
    Complete source (.access false) (ts ++ o :: (us ++ [c])) (.keyed e key) := by
  intro rest _
  have hb := h (o :: (us ++ c :: rest)) fun _ => after_cons_of_ne ho (by decide) _
  rw [List.append_assoc, bracketed_append]
  rw [hb, reading_accessRest_bracket source e ho, hk (c :: rest) (.cons hc (by decide) _)]
  simp only [Option.bind_some, after_cons_self hc]

theorem callFunction {args : List Expr} (h : Complete source (.access false) ts e)
    (ho : o.isSpelled "(" = true) (ha : Complete source .arguments us args)
    (hc : c.isSpelled ")" = true) :
    Complete source (.access false) (ts ++ o :: (us ++ [c])) (.callFunction e args) := by
  intro rest _
  have hb := h (o :: (us ++ c :: rest)) (by simp)
  rw [List.append_assoc, bracketed_append]
  rw [hb, reading_accessRest_paren source e ho, ha ")" c rest hc (.inl rfl), Option.bind_some]

/-! ### primaries -/

theorem group (ho : o.isSpelled "(" = true) (h : Complete source .expression ts e)
    (hc : c.isSpelled ")" = true) :
    Complete source (.primary false) (o :: (ts ++ [c])) e := by
  intro rest _
  rw [bracketed_append]
  exact reading_primary_group (r := some e) ho hc (h (c :: rest) (.cons hc (by decide) _))

theorem array {es : List Expr} (ho : o.isSpelled "[" = true)
    (h : Complete source .arguments ts es) (hc : c.isSpelled "]" = true) :
    Complete source (.primary false) (o :: (ts ++ [c])) (.array es) := by
  intro rest _
  rw [bracketed_append]
  rw [reading_primary_bracket source ho, h "]" c rest hc (.inr rfl), Option.map_some]

theorem object {ps : List (String × Expr)} (ho : o.isSpelled "\x7b" = true)
    (h : Complete source .entries ts ps) (hc : c.isSpelled "\x7d" = true) :
    Complete source (.primary false) (o :: (ts ++ [c]))
      (.object (ps.map Prod.fst) (ps.map Prod.snd)) := by
  intro rest _
  rw [bracketed_append]
  rw [reading_primary_brace source ho, h c rest hc, Option.map_some]

theorem constant {s : String} {v : Value} (hs : t.isSpelled s = true)
    (hm : s ∉ ["(", "[", "\x7b"]) (hv : constant? t = some v) :
    Complete source (.primary false) [t] (.literal v) := by
  intro rest _
  rw [List.singleton_append, reading_primary_of_unlike (.of_isSpelled hs hm rest), atom, hv]

theorem scope (hw : t.content = .word) (hr : t.text ∉ reserved) (hf : Token.Formed t) :
    Complete source (.primary true) [t] (.scope t.text) := by
  intro rest hrest
  rw [List.singleton_append, reading_primary_of_unlike (.of_word hw hf (by decide) _), atom,
    constant?_of_word hw hr]
  simp only [hw, hrest rfl]

theorem callScope {args : List Expr} (hw : t.content = .word) (hr : t.text ∉ reserved)
    (hf : Token.Formed t) (ho : o.isSpelled "(" = true) (h : Complete source .arguments ts args)
    (hc : c.isSpelled ")" = true) :
    Complete source (.primary false) (t :: o :: (ts ++ [c])) (.callScope t.text args) := by
  intro rest _
  rw [List.cons_append, bracketed_append]
  rw [reading_primary_of_unlike (.of_word hw hf (by decide) _), atom, constant?_of_word hw hr]
  simp only [hw, after_cons_self ho, h ")" c rest hc (.inl rfl), Option.map_some]

/-- A token without a spelling is read by what it contains. -/
theorem literal (hl : ∀ s, t.isSpelled s = false)
    (ha : ∀ rest, atom source (t :: rest) = some (e, rest)) :
    Complete source (.primary false) [t] e := by
  intro rest _
  rw [List.singleton_append, reading_primary_of_unlike (.of_literal hl rest), ha]

/-! ### lists -/

theorem noArguments : Complete source .arguments [] [] := by
  intro close c rest hc _
  rw [List.nil_append, reading_arguments, after_cons_self hc]

theorem someArguments {es : List Expr} (hstart : StartsUnlike closers ts)
    (h : Complete source .items ts es) : Complete source .arguments ts es := by
  intro close c rest hc hclose
  exact reading_arguments_of_items (r := some es) hclose hc hstart h rest

theorem item (h : Complete source .expression ts e) : Complete source .items ts [e] := by
  intro rest hr hc
  rw [reading_items, h rest hr]
  simp only [Option.bind_some, hc]

theorem items {es : List Expr} {comma : Token} (h : Complete source .expression ts e)
    (hs : comma.isSpelled "," = true) (hes : Complete source .items us es) :
    Complete source .items (ts ++ comma :: us) (e :: es) := by
  intro rest hr hc
  rw [List.append_assoc, List.cons_append, reading_items,
    h (comma :: (us ++ rest)) (.cons hs (by decide) _)]
  simp only [Option.bind_some, after_cons_self hs, hes rest hr hc, Option.map_some]

theorem noEntries : Complete source .entries [] [] := by
  intro c rest hc
  rw [List.nil_append, reading_entries, after_cons_self hc]

theorem someEntries {ps : List (String × Expr)} (hstart : StartsUnlike closers ts)
    (h : Complete source .pairs ts ps) : Complete source .entries ts ps := by
  intro c rest hc
  exact reading_entries_of_pairs (r := some ps) hc hstart h rest

theorem pair {key : String} {colon : Token} (hk : key? t = some key)
    (hs : colon.isSpelled ":" = true) (h : Complete source .expression ts e) :
    Complete source .pairs (t :: colon :: ts) [(key, e)] := by
  intro rest hr hc
  rw [reading_pairs]
  simp only [List.cons_append, hk, Option.bind_some, after_cons_self hs, h rest hr, hc]

theorem pairs {key : String} {ps : List (String × Expr)} {colon comma : Token}
    (hk : key? t = some key) (hs : colon.isSpelled ":" = true)
    (h : Complete source .expression ts e) (hm : comma.isSpelled "," = true)
    (hps : Complete source .pairs us ps) :
    Complete source .pairs (t :: colon :: (ts ++ comma :: us)) ((key, e) :: ps) := by
  intro rest hr hc
  have he := h (comma :: (us ++ rest)) (.cons hm (by decide) _)
  rw [reading_pairs]
  simp only [List.cons_append, List.append_assoc, hk, Option.bind_some, after_cons_self hs, he,
    after_cons_self hm, hps rest hr hc, Option.map_some]

end

end Complete

/-- Every phrase of the grammar is read. -/
theorem complete (source : String) {φ : Phrase} {ts : List Token} {tree : φ.Tree}
    (h : Derives φ ts tree) (hf : ∀ t ∈ ts, Token.Formed t) : Complete source φ ts tree := by
  -- the tokens of the parts of a phrase are among its own
  induction h with (try simp only [List.forall_mem_append, List.forall_mem_cons] at hf)
  | plain h ih => exact .plain (unfiltered h) (ih hf)
  | pipe _ hbar hn _ ih iha => exact .pipe (ih hf.1) hbar hn (iha hf.2.2.2)
  | noFilterArgs => exact .noFilterArgs
  | filterArg hs _ hd ih ihs => exact .filterArg hs (ih hf.2.1) hd (ihs hf.2.2)
  | value _ ih => exact .value (ih hf)
  | assign _ ha hs _ ih ihe => exact .assign (ih hf.1) ha hs (ihe hf.2.2)
  | settled _ ih => exact .settled (ih hf)
  | choice _ hm _ hc _ ih ihy ihn => exact .choice (ih hf.1) hm (ihy hf.2.2.1) hc (ihn hf.2.2.2.2)
  | single _ ih => exact .single (ih hf)
  | operation _ hop hs _ ih ihr => exact .operation (ih hf.1) hop hs (ihr hf.2.2)
  | tighter hq _ ih => exact .tighter hq (ih hf)
  | tightest hp _ ih => exact .tightest hp (ih hf)
  | plus hs _ ih => exact .plus hs (ih hf.2)
  | minus hs _ ih => exact .minus hs (ih hf.2)
  | not hs _ ih => exact .not hs (ih hf.2)
  | unsigned h ih =>
    have hstart : StartsUnlike (closers ++ signs) _ := begins h hf
    exact .unsigned (hstart.mono (List.subset_append_right _ _)) (ih hf)
  | start _ ih => exact .start (ih hf)
  | member _ hd hn ih => exact .member (ih hf.1) hd hn
  | callMember _ hd hn ho _ hc ih iha =>
    exact .callMember (ih hf.1) hd hn ho (iha hf.2.2.2.2.1) hc
  | keyed _ ho _ hc ih ihk => exact .keyed (ih hf.1) ho (ihk hf.2.2.1) hc
  | callFunction _ ho _ hc ih iha => exact .callFunction (ih hf.1) ho (iha hf.2.2.1) hc
  | group ho _ hc ih => exact .group ho (ih hf.2.1) hc
  | null hs =>
    rcases hs with hs | hs
    · exact .constant hs (by decide) (constant?_of_isSpelled hs)
    · exact .constant hs (by decide) (constant?_of_isSpelled hs)
  | true hs => exact .constant hs (by decide) (constant?_of_isSpelled hs)
  | false hs => exact .constant hs (by decide) (constant?_of_isSpelled hs)
  | array ho _ hc ih => exact .array ho (ih hf.2.1) hc
  | object ho _ hc ih => exact .object ho (ih hf.2.1) hc
  | scope hw hr => exact .scope hw hr hf.1
  | callScope hw hr ho _ hc ih => exact .callScope hw hr hf.1 ho (ih hf.2.2.1) hc
  | @number n t hn =>
    have hl : ∀ s, t.isSpelled s = false := fun s => by simp [Token.isSpelled, hn]
    exact .literal hl fun rest => by simp only [atom, constant?_of_literal hl, hn]
  | @str s t hs =>
    have hl : ∀ s, t.isSpelled s = false := fun s => by simp [Token.isSpelled, hs]
    exact .literal hl fun rest => by simp only [atom, constant?_of_literal hl, hs]
  | noArguments => exact .noArguments
  | someArguments h ih => exact .someArguments (begins h hf) (ih hf)
  | item _ ih => exact .item (ih hf)
  | items _ hs _ ih ihs => exact .items (ih hf.1) hs (ihs hf.2.2)
  | noEntries => exact .noEntries
  | someEntries h ih => exact .someEntries (begins h hf) (ih hf)
  | pair hk hs _ ih => exact .pair hk hs (ih hf.2.2)
  | pairs hk hs _ hm _ ih ihs => exact .pairs hk hs (ih hf.2.2.1) hm (ihs hf.2.2.2.2)

/-! ## pipelines -/

theorem reading_eq_some_iff {α : Type} {n : Nat} {x : Outcome α n} {a : α} {rest : List Token} :
    x.reading = some (a, rest) ↔ ∃ shorter, x = .ok ⟨a, rest, shorter⟩ := by
  constructor
  · intro h
    cases x with
    | error e => simp at h
    | ok p =>
      simp only [reading_ok, Option.some.injEq, Prod.mk.injEq] at h
      obtain ⟨rfl, rfl⟩ := h
      exact ⟨p.shorter, rfl⟩
  · rintro ⟨shorter, rfl⟩
    rfl

/-- A pipeline is read exactly where the grammar has one that the tokens behind do not extend. -/
theorem reading_filtered_iff {source : String} {ts : List Token} (hf : ∀ t ∈ ts, Token.Formed t)
    {e : Expr} {rest : List Token} :
    (filtered source ts).reading = some (e, rest) ↔
      ∃ us, ts = us ++ rest ∧ Derives .filtered us e ∧ PipelineStops e rest ∧
        after "|" rest = none := by
  constructor
  · exact sound_filtered
  · rintro ⟨us, rfl, hd, hstop, hbar⟩
    have hc : Complete source .filtered us e :=
      complete source hd fun t ht => hf t (List.mem_append_left _ ht)
    rw [hc rest hstop, reading_filterRest, hbar]

theorem reading_filtered_whole_iff {source : String} {ts : List Token}
    (hf : ∀ t ∈ ts, Token.Formed t) {e : Expr} :
    (filtered source ts).reading = some (e, []) ↔ Derives .filtered ts e := by
  rw [reading_filtered_iff hf]
  constructor
  · rintro ⟨us, hts, hd, _⟩
    rwa [hts, List.append_nil]
  · intro hd
    exact ⟨ts, (List.append_nil ts).symm, hd, .of_stops (.nil _) e, rfl⟩

/-- A list of tokens is a pipeline in one way at most. -/
theorem unambiguous {ts : List Token} (hf : ∀ t ∈ ts, Token.Formed t) {e e' : Expr}
    (h : Derives .filtered ts e) (h' : Derives .filtered ts e') : e = e' := by
  have hr : (filtered "" ts).reading = some (e, []) := (reading_filtered_whole_iff hf).mpr h
  rw [(reading_filtered_whole_iff hf).mpr h'] at hr
  simp only [Option.some.injEq, Prod.mk.injEq, and_true] at hr
  exact hr.symm

theorem after_cons_eq_none {s : String} {t : Token} {ts : List Token}
    (h : after s (t :: ts) = none) (us : List Token) : after s (t :: us) = none := by
  cases ht : t.isSpelled s with
  | true => rw [after_cons_self ht] at h; simp at h
  | false => rw [after, ht]; rfl

/-- Whether a pipeline stops is seen from the next token. -/
theorem pipelineStops_cons {e : Expr} {t : Token} {ts : List Token}
    (h : PipelineStops e (t :: ts)) (us : List Token) : PipelineStops e (t :: us) :=
  h.imp fun _ _ hs => after_cons_eq_none hs us

/-- No longer start of the tokens is a pipeline than the one that was read. -/
theorem longest_pipeline {source : String} {us rest vs ws : List Token} {e e' : Expr}
    (hf : ∀ t ∈ us ++ rest, Token.Formed t)
    (h : (filtered source (us ++ rest)).reading = some (e, rest))
    (hsplit : us ++ rest = vs ++ ws) (hd : Derives .filtered vs e') :
    vs.length ≤ us.length ∧ (vs = us → e' = e) := by
  obtain ⟨us', hus', hdu, hstop, hbar⟩ := (reading_filtered_iff hf).mp h
  obtain rfl : us = us' := List.append_cancel_right hus'
  have hfv : ∀ t ∈ vs, Token.Formed t := fun t ht => hf t (by rw [hsplit]; simp [ht])
  constructor
  · rcases List.append_eq_append_iff.mp hsplit with ⟨more, hvs, hrest⟩ | ⟨more, hus, hws⟩
    · cases more with
      | nil => exact Nat.le_of_eq (by rw [hvs, List.append_nil])
      | cons t more =>
        -- what was read ends before `t` in the longer start too
        rw [hrest, List.cons_append] at hstop hbar
        have hu : (filtered source vs).reading = some (e, t :: more) :=
          (reading_filtered_iff hfv).mpr
            ⟨us, hvs, hdu, pipelineStops_cons hstop more, after_cons_eq_none hbar more⟩
        rw [(reading_filtered_whole_iff hfv).mpr hd] at hu
        simp at hu
    · rw [hus, List.length_append]
      exact Nat.le_add_right _ _
  · intro heq
    subst heq
    exact unambiguous hfv hd hdu

/-- Reading a pipeline decides the grammar. What is read is a pipeline of the grammar that the
tokens behind do not extend, every such pipeline is read, and it is the longest. -/
theorem filtered_decides_grammar (source : String) (ts : List Token)
    (formed : ∀ t ∈ ts, Token.Formed t) :
    (∀ e rest, (∃ shorter, filtered source ts = .ok ⟨e, rest, shorter⟩) ↔
      ∃ us, ts = us ++ rest ∧ Derives .filtered us e ∧ PipelineStops e rest ∧
        after "|" rest = none) ∧
    (∀ e, (∃ shorter, filtered source ts = .ok ⟨e, [], shorter⟩) ↔ Derives .filtered ts e) ∧
    (∀ e us rest shorter, ts = us ++ rest → filtered source ts = .ok ⟨e, rest, shorter⟩ →
      ∀ vs ws e', ts = vs ++ ws → Derives .filtered vs e' →
        vs.length ≤ us.length ∧ (vs = us → e' = e)) := by
  refine ⟨fun e rest => ?_, fun e => ?_, ?_⟩
  · rw [← reading_eq_some_iff]
    exact reading_filtered_iff formed
  · rw [← reading_eq_some_iff]
    exact reading_filtered_whole_iff formed
  · intro e us rest shorter hts h vs ws e' hsplit hd
    have hr := reading_eq_some_iff.mpr ⟨shorter, h⟩
    subst hts
    exact longest_pipeline formed hr hsplit hd

/-- The tokens of `a | f` are read to their end, so they are a pipeline of the grammar. -/
theorem filtered_decides_pipe :
    (∃ shorter, filtered "a | f" [⟨0, "a", .word⟩, ⟨2, "|", .symbol⟩, ⟨4, "f", .word⟩] =
      .ok ⟨.filter (.scope "a") "f" [], [], shorter⟩) ∧
    Derives .filtered [⟨0, "a", .word⟩, ⟨2, "|", .symbol⟩, ⟨4, "f", .word⟩]
      (.filter (.scope "a") "f" []) := by
  have formed : ∀ t ∈ [⟨0, "a", .word⟩, ⟨2, "|", .symbol⟩, ⟨4, "f", .word⟩], Token.Formed t := by
    simp [Token.Formed]
    decide
  have hread : ∃ shorter, filtered "a | f" [⟨0, "a", .word⟩, ⟨2, "|", .symbol⟩, ⟨4, "f", .word⟩] =
      .ok ⟨.filter (.scope "a") "f" [], [], shorter⟩ := ⟨by decide, by cbv⟩
  exact ⟨hread, ((filtered_decides_grammar "a | f" _ formed).2.1 _).mp hread⟩

end TemplateExpr.Grammar
