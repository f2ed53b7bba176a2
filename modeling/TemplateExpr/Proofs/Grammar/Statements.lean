import Mathlib.Data.List.Forall2
import TemplateExpr.Proofs.Grammar.Completeness

/-!
# Statements and semicolons

A program is pipelines and semicolons in any order. Semicolons need not stand between statements;
what they do is to forbid filters.

* `Sequence separated ts es`   the tokens are these statements; `separated` if a semicolon stands
                               somewhere before them;
* `toOption_program_iff`       programs are read exactly so;
* `Sequence.filter`            what stands around a statement that is a filter;
* `Sequence.append`            two sequences without filters and a semicolon between them.
-/

namespace TemplateExpr

namespace Grammar

/-- The statements of a list of tokens. Each is as long as it can be, and one that is a filter has
no semicolon before or right behind it. -/
inductive Sequence : Bool → List Token → List Expr → Prop where
  | done {separated : Bool} : Sequence separated [] []
  | semicolon {separated : Bool} {t : Token} {ts : List Token} {es : List Expr} :
      t.isSpelled ";" = true → Sequence true ts es → Sequence separated (t :: ts) es
  | statement {separated : Bool} {us rest : List Token} {e : Expr} {es : List Expr} :
      Derives .filtered us e → PipelineStops e rest → after "|" rest = none →
      (e.isFilter = true → separated = false ∧ startsWith ";" rest = false) →
      Sequence separated rest es → Sequence separated (us ++ rest) (e :: es)

/-! ## reading -/

theorem skipSemicolons_cons {t : Token} (h : t.isSpelled ";" = true) (ts : List Token) :
    skipSemicolons (t :: ts) = skipSemicolons ts := List.dropWhile_cons_of_pos h

theorem skipSemicolons_of_startsWith {ts : List Token} (h : startsWith ";" ts = false) :
    skipSemicolons ts = ts := by
  cases ts with
  | nil => rfl
  | cons t ts =>
    refine List.dropWhile_cons_of_neg ?_
    rw [show t.isSpelled ";" = false from h]
    decide

/-- The semicolons at the front of a sequence. -/
theorem Sequence.of_skipSemicolons {separated : Bool} {ts : List Token} {es : List Expr}
    (h : Sequence (separated || startsWith ";" ts) (skipSemicolons ts) es) :
    Sequence separated ts es := by
  induction ts generalizing separated with
  | nil => simpa [startsWith, skipSemicolons] using h
  | cons t ts ih =>
    cases ht : t.isSpelled ";" with
    | true =>
      rw [skipSemicolons_cons ht, startsWith, ht, Bool.or_true] at h
      exact .semicolon ht (ih (by rwa [Bool.true_or]))
    | false =>
      have hstart : startsWith ";" (t :: ts) = false := ht
      rwa [skipSemicolons_of_startsWith hstart, hstart, Bool.or_false] at h

theorem sequence_of_statements {source : String} {separated : Bool} {ts : List Token}
    {es : List Expr} (h : (statements source separated ts).toOption = some es) :
    Sequence separated ts es := by
  induction hn : ts.length using Nat.strongRecOn generalizing ts separated es with
  | _ n ih =>
    cases ts with
    | nil =>
      rw [toOption_statements_nil, Option.some.injEq] at h
      rw [← h]
      exact .done
    | cons t tail =>
      rw [toOption_statements] at h
      split at h
      · simp at h
      · obtain ⟨⟨e, rest⟩, hr, h⟩ := Option.bind_eq_some_iff.mp h
        obtain ⟨us, hus, hd, hstop, hbar⟩ := sound_filtered hr
        have hlen := length_of_reading hr
        have hskip : (skipSemicolons rest).length ≤ rest.length :=
          Lexeme.length_dropWhile_le _ rest
        dsimp only at h
        split at h
        · simp at h
        · next hfilter =>
          obtain ⟨es', hes', rfl⟩ := Option.map_eq_some_iff.mp h
          rw [hus]
          refine .statement hd hstop hbar (fun hf => ?_)
            (.of_skipSemicolons (ih _ (by omega) hes' rfl))
          rw [hf, Bool.and_true, Bool.not_eq_true, Bool.or_eq_false_iff] at hfilter
          exact hfilter

/-- The first of the statements, whatever comes of the rest. -/
theorem statements_append {us rest : List Token} {e : Expr} (hd : Derives .filtered us e)
    (hstop : PipelineStops e rest) (hbar : after "|" rest = none)
    (hf : ∀ t ∈ us ++ rest, Token.Formed t) (source : String) (separated : Bool) :
    startsWith ";" (us ++ rest) = false ∧
      statements source separated (us ++ rest) =
        if (separated || startsWith ";" rest) && e.isFilter then
          failAt source (skipSemicolons rest) .filterInChain
        else
          (statements source (separated || startsWith ";" rest) (skipSemicolons rest)).map
            (e :: ·) := by
  have hread : (filtered source (us ++ rest)).reading = some (e, rest) :=
    (reading_filtered_iff hf).mpr ⟨us, rfl, hd, hstop, hbar⟩
  have hbegins : StartsUnlike closers (us ++ rest) :=
    StartsUnlike.append (begins hd fun t ht => hf t (List.mem_append_left rest ht)) rest
  obtain ⟨t, tail, hcons, hunlike⟩ := hbegins
  have hunspelled : ∀ s ∈ closers, startsWith s (t :: tail) = false :=
    fun s hs => Bool.eq_false_iff.mpr (hunlike s hs)
  have hopen : startsWithCloser (t :: tail) = false := by
    rw [startsWithCloser, hunspelled _ (by decide), hunspelled _ (by decide),
      hunspelled _ (by decide)]
    rfl
  rw [hcons] at hread ⊢
  refine ⟨hunspelled ";" (by decide), ?_⟩
  rw [statements, hopen]
  cases hfiltered : filtered source (t :: tail) with
  | error err =>
    rw [hfiltered] at hread
    simp at hread
  | ok p =>
    rw [hfiltered, reading_ok, Option.some.injEq] at hread
    obtain ⟨value, left, shorter⟩ := p
    cases hread
    simp only [Bool.false_eq_true, if_false]
    split
    · rfl
    · cases statements source (separated || startsWith ";" left) (skipSemicolons left) <;> rfl

/-- A sequence is read from behind the semicolons at its front. -/
theorem Sequence.toOption_statements {separated : Bool} {ts : List Token} {es : List Expr}
    (h : Sequence separated ts es) (hf : ∀ t ∈ ts, Token.Formed t) (source : String) :
    (statements source (separated || startsWith ";" ts) (skipSemicolons ts)).toOption =
      some es := by
  induction h with
  | done => exact toOption_statements_nil source _
  | semicolon ht _ ih =>
    have hrest := ih fun t ht => hf t (List.mem_cons_of_mem _ ht)
    rw [Bool.true_or] at hrest
    rw [skipSemicolons_cons ht, startsWith, ht, Bool.or_true, hrest]
  | @statement separated us rest e es hd hstop hbar hfilter _ ih =>
    have hrest := ih fun t ht => hf t (List.mem_append_right us ht)
    obtain ⟨hstart, hstatements⟩ := statements_append hd hstop hbar hf source separated
    have hallowed : ((separated || startsWith ";" rest) && e.isFilter) = false := by
      rw [Bool.and_eq_false_iff]
      cases he : e.isFilter with
      | false => exact .inr rfl
      | true =>
        obtain ⟨hseparated, hsemicolon⟩ := hfilter he
        exact .inl (by rw [hseparated, hsemicolon]; rfl)
    rw [hstart, Bool.or_false, skipSemicolons_of_startsWith hstart, hstatements, hallowed]
    cases hs : statements source (separated || startsWith ";" rest) (skipSemicolons rest) with
    | error err =>
      rw [hs] at hrest
      cases hrest
    | ok ds =>
      rw [hs] at hrest
      cases hrest
      rfl

/-- **A program is read exactly where its tokens are a sequence of statements.** -/
theorem toOption_program_iff {source : String} {ts : List Token} {e : Expr}
    (hf : ∀ t ∈ ts, Token.Formed t) :
    (program source ts).toOption = some e ↔ ∃ es, Sequence false ts es ∧ combine es = e := by
  rw [toOption_program, Option.map_eq_some_iff]
  constructor
  · rintro ⟨es, hes, rfl⟩
    refine ⟨es, .of_skipSemicolons ?_, rfl⟩
    rw [Bool.false_or]
    exact sequence_of_statements hes
  · rintro ⟨es, hes, rfl⟩
    refine ⟨es, ?_, rfl⟩
    have hread := hes.toOption_statements hf source
    rwa [Bool.false_or] at hread

/-! ## filters -/

/-- Where a statement is a filter, the statements up to it stand side by side from the start, and
no semicolon is right behind it. -/
theorem Sequence.filter {separated : Bool} {ts : List Token} {before after : List Expr} {e : Expr}
    (h : Sequence separated ts (before ++ e :: after)) (he : e.isFilter = true) :
    separated = false ∧ ∃ phrases rest, ts = phrases.flatten ++ rest ∧
      List.Forall₂ (Derives .filtered) phrases (before ++ [e]) ∧ startsWith ";" rest = false := by
  generalize hes : before ++ e :: after = es at h
  induction h generalizing before with
  | done => simp at hes
  | semicolon _ _ ih =>
    obtain ⟨hflag, _⟩ := ih hes
    exact absurd hflag.symm Bool.false_ne_true
  | @statement separated us rest d ds hd _ _ hfilter _ ih =>
    cases before with
    | nil =>
      obtain ⟨rfl, rfl⟩ := List.cons.inj hes
      obtain ⟨hflag, hnext⟩ := hfilter he
      exact ⟨hflag, [us], rest, by simp, .cons hd .nil, hnext⟩
    | cons d' before =>
      obtain ⟨rfl, htail⟩ := List.cons.inj hes
      obtain ⟨hflag, phrases, behind, rfl, hphrases, hnext⟩ := ih htail
      exact ⟨hflag, us :: phrases, behind, by simp, .cons hd hphrases, hnext⟩

/-! ## joining -/

theorem after_append {s : String} {rest : List Token} (h : after s rest = none) {t : Token}
    (ht : t.isSpelled ";" = true) (hs : s ≠ ";") (us : List Token) :
    after s (rest ++ t :: us) = none := by
  cases rest with
  | nil => exact after_cons_of_ne ht hs us
  | cons r rest => exact after_cons_eq_none h _

/-- A pipeline that stops before some tokens stops there with a semicolon and more behind them. -/
theorem PipelineStops.append {e : Expr} {rest : List Token} (h : PipelineStops e rest) {t : Token}
    (ht : t.isSpelled ";" = true) (us : List Token) : PipelineStops e (rest ++ t :: us) := by
  refine h.imp fun s hm hs => ?_
  exact after_append hs ht (ne_of_mem_of_not_mem hm (by decide)) us

/-- Without filters, semicolons make no difference to what may follow them. -/
theorem Sequence.separate {separated : Bool} {ts : List Token} {es : List Expr}
    (h : Sequence separated ts es) (hes : ∀ e ∈ es, e.isFilter = false) (separated' : Bool) :
    Sequence separated' ts es := by
  induction h generalizing separated' with
  | done => exact .done
  | semicolon ht hrest _ => exact .semicolon ht hrest
  | statement hd hstop hbar _ _ ih =>
    refine .statement hd hstop hbar (fun hf => ?_) (ih (fun e he => hes e (by simp [he])) _)
    rw [hes _ (by simp)] at hf
    exact absurd hf Bool.false_ne_true

/-- **Two sequences without filters and a semicolon between them are one sequence.** -/
theorem Sequence.append {separated : Bool} {ts us : List Token} {es ds : List Expr}
    (h : Sequence separated ts es) (hes : ∀ e ∈ es, e.isFilter = false) {t : Token}
    (ht : t.isSpelled ";" = true) (hu : Sequence true us ds) :
    Sequence separated (ts ++ t :: us) (es ++ ds) := by
  induction h with
  | done => exact .semicolon ht hu
  | semicolon hs _ ih => exact .semicolon hs (ih hes)
  | statement hd hstop hbar _ _ ih =>
    rw [List.append_assoc]
    refine .statement hd (hstop.append ht us) (after_append hbar ht (by decide) us) (fun hf => ?_)
      (ih fun e he => hes e (by simp [he]))
    rw [hes _ (by simp)] at hf
    exact absurd hf Bool.false_ne_true

end Grammar

end TemplateExpr
