import TemplateExpr.Proofs.Expr.Sequencing

/-!
# Semicolons around a program

Semicolons and blanks before and after a program make no difference, unless they forbid a filter
that it has: a semicolon in front forbids all of them, and one behind the last.

* `Separators us`            tokens that are all semicolons;
* `Forbidden front back es`  a filter that a semicolon before or behind the statements forbids;
* `Sequence.precede`, `Sequence.follow`   a sequence with semicolons before or after it;
* `Sequence.refused`         statements with a forbidden filter are refused for it;
* `Lexes.separators`         the tokens of semicolons and blanks before a text;
* `Expr.parse_padded`        a program with semicolons and blanks around it.
-/

namespace TemplateExpr

namespace Grammar

/-! ## sequences -/

def Separators (us : List Token) : Prop := ∀ u ∈ us, u.isSpelled ";" = true

/-- A filter among statements is forbidden by a semicolon in front of them all, and one at their end
also by a semicolon behind it. -/
def Forbidden (front back : Prop) (es : List Expr) : Prop :=
  (front ∧ ∃ e ∈ es, e.isFilter = true) ∨ (back ∧ ∃ e ∈ es.getLast?, e.isFilter = true)

theorem Forbidden.congr {front front' back back' : Prop} (hfront : front ↔ front')
    (hback : back ↔ back') (es : List Expr) :
    Forbidden front back es ↔ Forbidden front' back' es := by
  rw [Forbidden, Forbidden, hfront, hback]

/-- Semicolons before a sequence forbid its filters. -/
theorem Sequence.precede {separated : Bool} {ts us : List Token} {es : List Expr}
    (h : Sequence separated ts es) (hus : Separators us)
    (hes : us ≠ [] → ∀ e ∈ es, e.isFilter = false) : Sequence separated (us ++ ts) es := by
  induction us generalizing separated with
  | nil => exact h
  | cons u us ih =>
    have hplain := hes (List.cons_ne_nil u us)
    apply Sequence.semicolon (hus u List.mem_cons_self)
    apply ih (h.separate hplain true)
    · intro v hv
      exact hus v (List.mem_cons_of_mem u hv)
    · intro _
      exact hplain

theorem Sequence.of_separators {separated : Bool} {us : List Token} (hus : Separators us) :
    Sequence separated us [] := by
  rw [← List.append_nil us]
  exact Sequence.done.precede hus (by simp)

/-- A pipeline that stops before some tokens stops there with semicolons behind them. -/
theorem PipelineStops.follow {e : Expr} {rest us : List Token} (h : PipelineStops e rest)
    (hus : Separators us) : PipelineStops e (rest ++ us) := by
  cases us with
  | nil => rwa [List.append_nil]
  | cons u us => exact h.append (hus u List.mem_cons_self) us

theorem after_follow {s : String} {rest us : List Token} (h : after s rest = none)
    (hs : s ≠ ";") (hus : Separators us) : after s (rest ++ us) = none := by
  cases us with
  | nil => rwa [List.append_nil]
  | cons u us => exact after_append h (hus u List.mem_cons_self) hs us

theorem startsWith_separators {us : List Token} (hus : Separators us) (hne : us ≠ []) :
    startsWith ";" us = true := by
  cases us with
  | nil => exact absurd rfl hne
  | cons u us => exact hus u List.mem_cons_self

theorem startsWith_append {s : String} {rest : List Token} (hne : rest ≠ []) (us : List Token) :
    startsWith s (rest ++ us) = startsWith s rest := by
  cases rest with
  | nil => exact absurd rfl hne
  | cons t rest => rfl

/-- Where nothing is left of a sequence but semicolons, and it does not begin with one, nothing is
left at all. -/
theorem Sequence.eq_nil_of_startsWith {separated : Bool} {rest : List Token}
    (h : Sequence separated rest []) (hstart : startsWith ";" rest = false) : rest = [] := by
  cases h with
  | done => rfl
  | semicolon ht _ =>
    rw [startsWith, ht] at hstart
    cases hstart

theorem Sequence.eq_nil_of_nil {separated : Bool} {es : List Expr}
    (h : Sequence separated [] es) : es = [] := by
  generalize hts : ([] : List Token) = ts at h
  cases h with
  | done => rfl
  | semicolon => cases hts
  | statement hd =>
    obtain ⟨rfl, rfl⟩ := List.append_eq_nil_iff.mp hts.symm
    obtain ⟨t, tail, hcons, _⟩ : StartsUnlike closers [] := begins hd (by simp)
    cases hcons

/-- Semicolons after a sequence forbid a filter at its end. -/
theorem Sequence.follow {separated : Bool} {ts us : List Token} {es : List Expr}
    (h : Sequence separated ts es) (hus : Separators us)
    (hes : us ≠ [] → ∀ e ∈ es.getLast?, e.isFilter = false) :
    Sequence separated (ts ++ us) es := by
  induction h with
  | done => exact .of_separators hus
  | semicolon ht _ ih => exact .semicolon ht (ih hes)
  | @statement separated us' rest e es hd hstop hbar hfilter hrest ih =>
    rw [List.append_assoc]
    refine .statement hd (hstop.follow hus) (after_follow hbar (by decide) hus) ?_ (ih ?_)
    · intro he
      obtain ⟨hseparated, hnext⟩ := hfilter he
      refine ⟨hseparated, ?_⟩
      by_cases hne : rest = []
      · subst hne
        cases us with
        | nil => rfl
        | cons u us =>
          -- Nothing is behind the filter, so it is the last statement.
          have hlast : es = [] := hrest.eq_nil_of_nil
          have hplain := hes (List.cons_ne_nil u us) e (by rw [hlast]; rfl)
          rw [he] at hplain
          cases hplain
      · rw [startsWith_append hne]
        exact hnext
    · intro hne d hd'
      cases es with
      | nil => cases hd'
      | cons e' es => exact hes hne d (by rwa [List.getLast?_cons_cons])

/-- **A filter that a semicolon before or after the sequence forbids is what the statements are
refused for.** The semicolon before it shows in the flag. -/
theorem Sequence.refused {separated separated' : Bool} {ts us : List Token} {es : List Expr}
    (h : Sequence separated ts es) (hf : ∀ t ∈ ts ++ us, Token.Formed t) (source : String)
    (hus : Separators us)
    (forbidden : Forbidden (separated' = true) (us ≠ []) es) :
    ∃ err, statements source (separated' || startsWith ";" (ts ++ us))
      (skipSemicolons (ts ++ us)) = .error err ∧ err.fault = .filterInChain := by
  induction h generalizing separated' with
  | done => simp [Forbidden] at forbidden
  | @semicolon separated t ts es ht _ ih =>
    have hsome : ∃ e ∈ es, e.isFilter = true := by
      rcases forbidden with ⟨_, hfilter⟩ | ⟨_, e, he, hfilter⟩
      · exact hfilter
      · exact ⟨e, List.mem_of_getLast? he, hfilter⟩
    have hflag : Forbidden (true = true) (us ≠ []) es := .inl ⟨rfl, hsome⟩
    have hrest := ih (fun t ht => hf t (List.mem_cons_of_mem _ ht)) hflag
    rw [List.cons_append, skipSemicolons_cons ht, startsWith, ht, Bool.or_true]
    rwa [Bool.true_or] at hrest
  | @statement separated us' rest e es hd hstop hbar hfilter hrest ih =>
    rw [List.append_assoc] at hf ⊢
    obtain ⟨hstart, hstatements⟩ := statements_append hd (hstop.follow hus)
      (after_follow hbar (by decide) hus) hf source separated'
    rw [hstart, Bool.or_false, skipSemicolons_of_startsWith hstart, hstatements]
    by_cases hhere : ((separated' || startsWith ";" (rest ++ us)) && e.isFilter) = true
    · rw [if_pos hhere]
      exact ⟨_, rfl, rfl⟩
    · rw [if_neg hhere]
      have hlater : Forbidden (separated' = true) (us ≠ []) es := by
        rcases forbidden with ⟨hflag, d, hd', hdf⟩ | ⟨hne, d, hd', hdf⟩
        · rcases List.mem_cons.mp hd' with rfl | hd'
          · rw [hflag, hdf] at hhere
            simp at hhere
          · exact .inl ⟨hflag, d, hd', hdf⟩
        · cases es with
          | nil =>
            obtain rfl : e = d := by simpa using hd'
            obtain rfl := hrest.eq_nil_of_startsWith (hfilter hdf).2
            rw [List.nil_append, startsWith_separators hus hne, hdf] at hhere
            simp at hhere
          | cons e' es =>
            rw [List.getLast?_cons_cons] at hd'
            exact .inr ⟨hne, d, hd', hdf⟩
      obtain ⟨err, herr, hfault⟩ :=
        ih (fun t ht => hf t (List.mem_append_right us' ht)) hlater
      rw [herr]
      exact ⟨err, rfl, hfault⟩

theorem startsWith_precede {us : List Token} (hus : Separators us) (ts : List Token) :
    startsWith ";" (us ++ ts) = (!us.isEmpty || startsWith ";" ts) := by
  cases us with
  | nil => rfl
  | cons u us => exact hus u List.mem_cons_self

theorem skipSemicolons_precede {us : List Token} (hus : Separators us) (ts : List Token) :
    skipSemicolons (us ++ ts) = skipSemicolons ts := by
  induction us with
  | nil => rfl
  | cons u us ih =>
    rw [List.cons_append, skipSemicolons_cons (hus u List.mem_cons_self)]
    exact ih fun v hv => hus v (List.mem_cons_of_mem u hv)

/-- A sequence with semicolons around it is a program, unless they forbid one of its filters. -/
theorem Sequence.toOption_program {ts fore aft : List Token} {es : List Expr}
    (h : Sequence false ts es) (hfore : Separators fore) (haft : Separators aft)
    (hf : ∀ t ∈ fore ++ (ts ++ aft), Token.Formed t) (source : String)
    (allowed : ¬ Forbidden (fore ≠ []) (aft ≠ []) es) :
    (program source (fore ++ (ts ++ aft))).toOption = some (combine es) := by
  have hback : Sequence false (ts ++ aft) es := by
    refine h.follow haft fun hne e he => ?_
    by_contra hfilter
    exact allowed (.inr ⟨hne, e, he, Bool.eq_true_of_not_eq_false hfilter⟩)
  have hfront : Sequence false (fore ++ (ts ++ aft)) es := by
    refine hback.precede hfore fun hne e he => ?_
    by_contra hfilter
    exact allowed (.inl ⟨hne, e, he, Bool.eq_true_of_not_eq_false hfilter⟩)
  exact (toOption_program_iff hf).mpr ⟨es, hfront, rfl⟩

theorem Sequence.program_refused {ts fore aft : List Token} {es : List Expr}
    (h : Sequence false ts es) (hfore : Separators fore) (haft : Separators aft)
    (hf : ∀ t ∈ ts ++ aft, Token.Formed t) (source : String)
    (forbidden : Forbidden (fore ≠ []) (aft ≠ []) es) :
    ∃ err, program source (fore ++ (ts ++ aft)) = .error err ∧ err.fault = .filterInChain := by
  have hflag : fore ≠ [] ↔ (!fore.isEmpty) = true := by cases fore <;> simp
  obtain ⟨err, herr, hfault⟩ :=
    h.refused hf source haft ((Forbidden.congr hflag Iff.rfl es).mp forbidden)
  refine ⟨err, ?_, hfault⟩
  rw [program, startsWith_precede hfore, skipSemicolons_precede hfore, herr]
  rfl

/-! ## places -/

namespace Alike

theorem sequence {separated : Bool} {ts us : List Token} {es : List Expr} (h : Alike us ts)
    (hts : Sequence separated ts es) : Sequence separated us es := by
  induction hts generalizing us with
  | done =>
    rw [h.nil]
    exact .done
  | semicolon ht _ ih =>
    obtain ⟨u, us, rfl, hu, hus⟩ := h.cons
    exact .semicolon (isSpelled_of_unplaced hu _ ▸ ht) (ih hus)
  | statement hd hstop hbar hfilter _ ih =>
    obtain ⟨vs, rest, rfl, hvs, hrest⟩ := h.append
    refine .statement (hvs.derives hd) (hrest.pipelineStops hstop) (hrest.after hbar) ?_ (ih hrest)
    intro he
    rw [hrest.startsWith_eq]
    exact hfilter he

theorem separators {ts us : List Token} (h : Alike us ts) (hts : Separators ts) :
    Separators us := by
  intro u hu
  have hmem : u.unplaced ∈ ts.map Token.unplaced := h ▸ List.mem_map_of_mem hu
  obtain ⟨t, ht, hplace⟩ := List.mem_map.mp hmem
  rw [isSpelled_of_unplaced hplace.symm]
  exact hts t ht

theorem ne_nil_iff {ts us : List Token} (h : Alike us ts) : us ≠ [] ↔ ts ≠ [] := by
  rw [Ne, Ne, ← List.map_eq_nil_iff (f := Token.unplaced), h, List.map_eq_nil_iff]

end Alike

end Grammar

/-! ## texts -/

/-- The tokens of the semicolons in a text. -/
def semicolons (cs : List Char) : List Token :=
  List.replicate (cs.count ';') (Token.ofSymbol ";")

theorem separators_semicolons (cs : List Char) : Grammar.Separators (semicolons cs) := by
  intro u hu
  rw [List.eq_of_mem_replicate hu]
  rfl

theorem semicolons_ne_nil_iff {cs : List Char} : semicolons cs ≠ [] ↔ ';' ∈ cs := by
  rw [semicolons, Ne, List.replicate_eq_nil_iff, List.count_eq_zero, not_not]

/-- Semicolons and blanks before a text are semicolons before its tokens. -/
theorem Lexes.separators {cs rest : List Char} {ts : List Token}
    (hcs : ∀ c ∈ cs, isSeparator c = true) (h : Lexes rest ts) :
    Lexes (cs ++ rest) (semicolons cs ++ ts) := by
  induction cs with
  | nil => exact h
  | cons c cs ih =>
    have hrest := ih fun d hd => hcs d (List.mem_cons_of_mem c hd)
    by_cases hc : c = ';'
    · subst hc
      rw [semicolons, List.count_cons_self, List.replicate_succ]
      exact .plain (s := ";") rfl (by decide) (by decide) hrest
    · have hblank : Text.isBlank c = true := by
        have hseparator := hcs c List.mem_cons_self
        rw [isSeparator, Bool.or_eq_true, beq_iff_eq] at hseparator
        exact hseparator.resolve_right hc
      rw [semicolons, List.count_cons_of_ne hc]
      exact .blank hblank hrest

namespace Expr

open Grammar (Forbidden Separators Alike)

/-- A text with others around it. -/
def padded (before : List Char) (source : String) (after : List Char) : String :=
  String.ofList before ++ source ++ String.ofList after

/-- The tokens of a text with semicolons and blanks around it. -/
theorem scan_padded {source : String} {ts : List Token} (hts : Token.scan source = .ok ts)
    {before after : List Char} (hbefore : ∀ c ∈ before, isSeparator c = true)
    (hafter : ∀ c ∈ after, isSeparator c = true) :
    ∃ fore us aft, Token.scan (padded before source after) = .ok (fore ++ (us ++ aft)) ∧
      Alike fore (semicolons before) ∧ Alike us ts ∧ Alike aft (semicolons after) := by
  have hlast : Lexes after (semicolons after) := by
    have hnothing := Lexes.separators hafter .done
    rwa [List.append_nil, List.append_nil] at hnothing
  have hseparated : Separated after := by
    intro c hc
    exact hafter c (List.mem_of_mem_head? hc)
  have hlexes : Lexes (padded before source after).toList
      (semicolons before ++ (ts.map Token.unplaced ++ semicolons after)) := by
    rw [padded, String.toList_append, String.toList_append, String.toList_ofList,
      String.toList_ofList, List.append_assoc]
    exact .separators hbefore ((lexes_of_scan hts).append hseparated hlast)
  obtain ⟨vs, hvs, hmap⟩ := scan_of_lexes hlexes
  have hunplaced : ∀ cs, (semicolons cs).map Token.unplaced = semicolons cs := by
    intro cs
    rw [semicolons, List.map_replicate]
    rfl
  have halike : Alike vs (semicolons before ++ (ts ++ semicolons after)) := by
    rw [Alike, hmap, List.map_append, List.map_append, hunplaced, hunplaced]
  obtain ⟨fore, vs, rfl, hfore, hvs'⟩ := halike.append
  obtain ⟨us, aft, rfl, hus, haft⟩ := hvs'.append
  exact ⟨fore, us, aft, hvs, hfore, hus, haft⟩

/-- **Semicolons and blanks around a program are neutral, but for the filters that they forbid.**
A program that has a forbidden filter is refused for it. -/
theorem parse_padded {source : String} {e : Expr} (parsed : Expr.parse source = .ok e)
    {before after : List Char} (hbefore : ∀ c ∈ before, isSeparator c = true)
    (hafter : ∀ c ∈ after, isSeparator c = true) :
    (¬ Forbidden (';' ∈ before) (';' ∈ after) e.statements →
      Expr.parse (padded before source after) = .ok e) ∧
    (Forbidden (';' ∈ before) (';' ∈ after) e.statements →
      ∃ err, Expr.parse (padded before source after) = .error (.grammar err) ∧
        err.fault = .filterInChain) := by
  obtain ⟨ts, hts, _, hsequence, hcombine⟩ := sequence_of_parse parsed
  obtain ⟨fore, us, aft, hscan, hfore, hus, haft⟩ := scan_padded hts hbefore hafter
  have hformed : ∀ t ∈ fore ++ (us ++ aft), Token.Formed t :=
    fun t ht => (scanned_of_scan hscan t ht).1
  have hread := hus.sequence hsequence
  have hforeSep := hfore.separators (separators_semicolons before)
  have haftSep := haft.separators (separators_semicolons after)
  rw [← Forbidden.congr (hfore.ne_nil_iff.trans semicolons_ne_nil_iff)
    (haft.ne_nil_iff.trans semicolons_ne_nil_iff)]
  constructor
  · intro allowed
    have hprogram := hread.toOption_program hforeSep haftSep hformed (padded before source after)
      allowed
    rw [hcombine] at hprogram
    exact Expr.parse_eq_ok_iff.mpr ⟨_, hscan, hprogram⟩
  · intro forbidden
    obtain ⟨err, herr, hfault⟩ := hread.program_refused hforeSep haftSep
      (fun t ht => hformed t (List.mem_append_right fore ht)) (padded before source after) forbidden
    refine ⟨err, ?_, hfault⟩
    unfold Expr.parse
    rw [hscan]
    dsimp only
    rw [herr]

/-- A filter that another statement follows may have a semicolon behind that one, but none in front
of it. -/
theorem parse_padded_beside :
    Expr.parse "a | f b" = .ok (chain [filter (scope "a") "f" [], scope "b"]) ∧
      Expr.parse (padded [' '] "a | f b" [';', ' ', ';']) =
        .ok (chain [filter (scope "a") "f" [], scope "b"]) ∧
      ∃ err, Expr.parse (padded [';'] "a | f b" []) = .error (.grammar err) ∧
        err.fault = .filterInChain := by
  have parsed : Expr.parse "a | f b" = .ok (chain [filter (scope "a") "f" [], scope "b"]) := by cbv
  have hblank : ∀ c ∈ [' '], isSeparator c = true := List.forall_mem_singleton.mpr rfl
  have hsemicolon : ∀ c ∈ [';'], isSeparator c = true := List.forall_mem_singleton.mpr rfl
  refine ⟨parsed, (parse_padded parsed hblank ?_).1 ?_, (parse_padded parsed hsemicolon ?_).2 ?_⟩
  · intro c hc
    rcases List.mem_cons.mp hc with rfl | hc
    · rfl
    · rcases List.mem_cons.mp hc with rfl | hc
      · rfl
      · exact hsemicolon c hc
  · rintro (⟨hfront, _⟩ | ⟨_, d, hd, hfilter⟩)
    · exact absurd hfront (by simp)
    · obtain rfl : scope "b" = d := Option.some.inj hd
      cases hfilter
  · exact fun c hc => absurd hc List.not_mem_nil
  · exact .inl ⟨List.mem_singleton_self ';', _, List.mem_cons_self, rfl⟩

/-- A semicolon behind a single statement is not ignored if that is a filter. -/
theorem not_forall_parse_padded :
    ¬ ∀ source e before after, Expr.parse source = .ok e →
      (∀ c ∈ before, isSeparator c = true) → (∀ c ∈ after, isSeparator c = true) →
      Expr.parse (padded before source after) = .ok e := by
  intro h
  have parsed : Expr.parse "a | f" = .ok (filter (scope "a") "f" []) := by cbv
  have hpadded := h _ _ [] [';'] parsed (fun c hc => absurd hc List.not_mem_nil)
    (List.forall_mem_singleton.mpr rfl)
  have hrefused : Expr.parse (padded [] "a | f" [';']) =
      .error (.grammar ⟨.filterInChain, .atEnd, "a | f;"⟩) := by cbv
  rw [hrefused] at hpadded
  cases hpadded

end Expr

end TemplateExpr
