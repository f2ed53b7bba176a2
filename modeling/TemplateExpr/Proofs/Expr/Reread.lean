import TemplateExpr.Proofs.Expr.Resuming

/-!
# What a rendered tree reads as

A rendered tree is written without the parentheses that some of its parts would need. What its
tokens read as is computed here from the tree alone.

* `Expr.reread`                         the tree that the tokens of a tree are read as, if any;
* `Grammar.readsAs_spelling`            the functions of the grammar read an expression so;
* `Grammar.toOption_program_spelling`   and a whole program.
-/

namespace TemplateExpr

namespace Expr

mutual

/-- What the text of a tree reads as. Accesses and calls go under the negations before them, and
arguments behind a name make a call of that name. -/
def reread : Expr → Option Expr
  | scope name => some (scope name)
  | member receiver name => (reread receiver).map (underNots (member · name))
  | keyed receiver key =>
    (reread receiver).bind fun r => (reread key).map fun k => underNots (keyed · k) r
  | callScope name args => (rereadAll args).map (callScope name)
  | callMember receiver name args =>
    (reread receiver).bind fun r => (rereadAll args).map fun as => underNots (callMember · name as) r
  | callFunction callee args =>
    (reread callee).bind fun c => (rereadAll args).map fun as => underNots (called as) c
  | binary op left right => (reread left).bind fun l => (reread right).map (binary op l)
  | not operand => (reread operand).map not
  | conditional condition yes no =>
    (reread condition).bind fun c => (reread yes).bind fun y => (reread no).map (conditional c y)
  | assign target value =>
    (reread target).bind fun t =>
      if t.isAssignable then (reread value).map (assign t) else none
  | literal v => some (literal v)
  | str s => some (str s)
  | array elements => (rereadAll elements).map array
  | object keys values => (rereadAll values).map (object keys)
  | filter input name args =>
    (reread input).bind fun i => (rereadAll args).map (filter i name)
  | chain statements =>
    if statements.any isFilter then none else (rereadAll statements).map chain

def rereadAll : List Expr → Option (List Expr)
  | [] => some []
  | e :: rest => (reread e).bind fun e' => (rereadAll rest).map (e' :: ·)

end

end Expr

namespace Grammar

open TemplateExpr.Expr

variable {source : String}

/-! ## lists -/

theorem startsUnlike_spelling (h : Heap) {e : Expr} (he : e.Formed) :
    StartsUnlike closers (e.spelling h) := by
  have symbol : ∀ (s : String) (ts : List Token), s ∉ closers →
      StartsUnlike closers (Token.ofSymbol s :: ts) :=
    fun s ts hs => .of_isSpelled (isSpelled_ofSymbol s) hs ts
  induction he with
  | scope hn => rw [spelling]; exact .of_word rfl (fun _ => hn) (by decide) _
  | callScope hn => rw [spelling]; exact .of_word rfl (fun _ => hn) (by decide) _
  | member _ _ ih => rw [spelling]; exact ih.append _
  | keyed _ _ ih => rw [spelling]; exact ih.append _
  | callMember _ _ _ ih => rw [spelling]; exact ih.append _
  | callFunction _ _ ih => rw [spelling]; exact ih.append _
  | binary => rw [spelling]; exact symbol _ _ (by decide)
  | not => rw [spelling]; exact symbol _ _ (by decide)
  | conditional => rw [spelling]; exact symbol _ _ (by decide)
  | assign => rw [spelling]; exact symbol _ _ (by decide)
  | array => rw [spelling]; exact symbol _ _ (by decide)
  | object => rw [spelling]; exact symbol _ _ (by decide)
  | str s => rw [spelling]; exact .of_literal (fun _ => rfl) _
  | literal hv =>
    rw [spelling]
    cases hv with
    | null =>
      have hn : isName "null".toList = true := by decide
      exact .of_word rfl (fun _ => hn) (by decide) _
    | bool b =>
      have hn : isName "false".toList = true ∧ isName "true".toList = true := by decide
      cases b with
      | false => exact .of_word rfl (fun _ => hn.1) (by decide) _
      | true => exact .of_word rfl (fun _ => hn.2) (by decide) _
    | @number n _ => cases n <;> exact .of_literal (fun _ => rfl) _

theorem reading_items_spelling (h : Heap) {e : Expr} {es : List Expr}
    (hes : ∀ a ∈ e :: es, ReadsAs source (a.spelling h) a.reread) (rest : List Token)
    (hs : Stops expressionMarks rest) (hc : after "," rest = none) :
    (items source (commaSeparated (spellingAll h (e :: es)) ++ rest)).reading =
      (rereadAll (e :: es)).map (·, rest) := by
  induction es generalizing e with
  | nil =>
    have he := (hes e (by simp)).expression hs
    rw [spellingAll, spellingAll, commaSeparated_singleton, reading_items, he, rereadAll,
      rereadAll]
    cases e.reread with
    | none => rfl
    | some e' => simp only [Option.map_some, Option.bind_some, hc]
  | cons e₂ es ih =>
    have hcomma := isSpelled_ofSymbol ","
    have hrest := ih fun a ha => hes a (List.mem_cons_of_mem e ha)
    have he := (hes e (by simp)).expression
      (.cons hcomma (by decide) (commaSeparated (spellingAll h (e₂ :: es)) ++ rest))
    have hsplit : commaSeparated (spellingAll h (e :: e₂ :: es)) ++ rest =
        e.spelling h ++ Token.ofSymbol "," :: (commaSeparated (spellingAll h (e₂ :: es)) ++ rest) := by
      rw [spellingAll, spellingAll, commaSeparated_cons_cons, List.append_assoc]
      rfl
    rw [hsplit, reading_items, he, rereadAll]
    cases e.reread with
    | none => rfl
    | some e' =>
      simp only [Option.map_some, Option.bind_some, after_cons_self hcomma, hrest]
      cases rereadAll (e₂ :: es) <;> rfl

theorem reading_arguments_spelling (h : Heap) {es : List Expr} (hf : ∀ a ∈ es, a.Formed)
    (hes : ∀ a ∈ es, ReadsAs source (a.spelling h) a.reread) {close : String}
    (hclose : close = ")" ∨ close = "]") (rest : List Token) :
    (arguments source close
        (commaSeparated (spellingAll h es) ++ .ofSymbol close :: rest)).reading =
      (rereadAll es).map (·, rest) := by
  have hself := isSpelled_ofSymbol close
  cases es with
  | nil =>
    rw [spellingAll, commaSeparated_nil, List.nil_append, reading_arguments,
      after_cons_self hself]
    rfl
  | cons e es =>
    have hstart : StartsUnlike closers (commaSeparated (spellingAll h (e :: es))) := by
      have he := startsUnlike_spelling h (hf e (by simp))
      cases es with
      | nil => rwa [spellingAll, spellingAll, commaSeparated_singleton]
      | cons e₂ es =>
        rw [spellingAll, spellingAll, commaSeparated_cons_cons]
        exact he.append _
    exact reading_arguments_of_items hclose hself hstart (reading_items_spelling h hes) rest

theorem key?_keyToken (key : String) : key? (keyToken key) = some key := by
  unfold keyToken
  split <;> rfl

theorem reading_pairs_spelling (h : Heap) {key : String} {keys : List String} {e : Expr}
    {es : List Expr} (hlen : keys.length = es.length)
    (hes : ∀ a ∈ e :: es, ReadsAs source (a.spelling h) a.reread) (rest : List Token)
    (hs : Stops expressionMarks rest) (hc : after "," rest = none) :
    (pairs source (commaSeparated (spellingEntries h (key :: keys) (e :: es)) ++ rest)).reading =
      ((rereadAll (e :: es)).map ((key :: keys).zip ·)).map (·, rest) := by
  have hcolon := isSpelled_ofSymbol ":"
  induction es generalizing key keys e with
  | nil =>
    obtain rfl : keys = [] := List.length_eq_zero_iff.mp hlen
    have he := (hes e (by simp)).expression hs
    rw [spellingEntries, spellingEntries, commaSeparated_singleton, reading_pairs]
    · simp only [List.cons_append, key?_keyToken, Option.bind_some, after_cons_self hcolon, he,
        rereadAll]
      cases e.reread with
      | none => rfl
      | some e' => simp only [Option.map_some, Option.bind_some, hc]; rfl
    · simp
  | cons e₂ es ih =>
    cases keys with
    | nil => simp at hlen
    | cons key₂ keys =>
      have hcomma := isSpelled_ofSymbol ","
      have hrest : (pairs source
          (commaSeparated (spellingEntries h (key₂ :: keys) (e₂ :: es)) ++ rest)).reading =
            ((rereadAll (e₂ :: es)).map ((key₂ :: keys).zip ·)).map (·, rest) :=
        ih (by simpa using hlen) fun a ha => hes a (List.mem_cons_of_mem e ha)
      have he := (hes e (by simp)).expression (.cons hcomma (by decide)
        (commaSeparated (spellingEntries h (key₂ :: keys) (e₂ :: es)) ++ rest))
      have hsplit : commaSeparated (spellingEntries h (key :: key₂ :: keys) (e :: e₂ :: es)) ++ rest =
          keyToken key :: Token.ofSymbol ":" :: (e.spelling h ++ Token.ofSymbol "," ::
            (commaSeparated (spellingEntries h (key₂ :: keys) (e₂ :: es)) ++ rest)) := by
        rw [spellingEntries, spellingEntries, commaSeparated_cons_cons, List.append_assoc]
        rfl
      rw [hsplit, reading_pairs, rereadAll]
      simp only [key?_keyToken, Option.bind_some, after_cons_self hcolon, he]
      cases e.reread with
      | none => rfl
      | some e' =>
        simp only [Option.map_some, Option.bind_some, after_cons_self hcomma, hrest]
        cases rereadAll (e₂ :: es) <;> rfl

theorem reading_entries_spelling (h : Heap) {keys : List String} {es : List Expr}
    (hlen : keys.length = es.length)
    (hes : ∀ a ∈ es, ReadsAs source (a.spelling h) a.reread) (rest : List Token) :
    (entries source
        (commaSeparated (spellingEntries h keys es) ++ .ofSymbol "\x7d" :: rest)).reading =
      ((rereadAll es).map (keys.zip ·)).map (·, rest) := by
  have hself := isSpelled_ofSymbol "\x7d"
  cases es with
  | nil =>
    obtain rfl : keys = [] := List.length_eq_zero_iff.mp hlen
    rw [spellingEntries, commaSeparated_nil, List.nil_append, reading_entries,
      after_cons_self hself]
    · rfl
    · simp
  | cons e es =>
    cases keys with
    | nil => simp at hlen
    | cons key keys =>
      have hstart : StartsUnlike closers
          (commaSeparated (spellingEntries h (key :: keys) (e :: es))) := by
        have hkey : ∀ ts, StartsUnlike closers (keyToken key :: ts) := by
          intro ts
          unfold keyToken
          split
          · next hn => exact .of_word rfl (fun _ => hn) (by decide) ts
          · exact .of_literal (fun _ => rfl) ts
        rw [spellingEntries]
        cases hmore : spellingEntries h keys es with
        | nil => rw [commaSeparated_singleton]; exact hkey _
        | cons ts tss => rw [commaSeparated_cons_cons]; exact hkey _
      exact reading_entries_of_pairs hself hstart
        (reading_pairs_spelling h (by simpa using hlen) hes) rest

theorem length_of_rereadAll {es es' : List Expr} (h : rereadAll es = some es') :
    es'.length = es.length := by
  induction es generalizing es' with
  | nil => rw [rereadAll, Option.some.injEq] at h; rw [← h]
  | cons e es ih =>
    rw [rereadAll] at h
    obtain ⟨e', _, h⟩ := Option.bind_eq_some_iff.mp h
    obtain ⟨vs, hvs, rfl⟩ := Option.map_eq_some_iff.mp h
    rw [List.length_cons, List.length_cons, ih hvs]

/-! ## expressions -/

variable (source)

/-- The tokens of an expression are read as `reread` says. -/
theorem readsAs_spelling (h : Heap) {e : Expr} (he : e.Formed) :
    ReadsAs source (e.spelling h) e.reread := by
  induction he with
  | scope hn hr =>
    rw [spelling, reread]
    exact readsAs_scope hn hr
  | @member receiver name _ _ ih =>
    rw [spelling, reread]
    exact ih.member name
  | keyed _ _ ih ihk =>
    rw [spelling, reread]
    exact ih.keyed ihk
  | callScope hn hr hf iha =>
    rw [spelling, reread]
    exact readsAs_callScope hn hr (reading_arguments_spelling h hf iha (.inl rfl))
  | @callMember receiver name args _ _ hf ih iha =>
    rw [spelling, reread]
    exact ih.callMember name (reading_arguments_spelling h hf iha (.inl rfl))
  | callFunction _ hf ih iha =>
    rw [spelling, reread]
    exact ih.callFunction (reading_arguments_spelling h hf iha (.inl rfl))
  | @binary op left right _ _ ih ihr =>
    rw [spelling, reread]
    exact readsAs_operation ih ihr op
  | not _ ih =>
    rw [spelling, reread]
    exact ih.not
  | conditional _ _ _ ihc ihy ihn =>
    rw [spelling, reread]
    exact readsAs_choice ihc ihy ihn
  | assign _ _ _ iht ihv =>
    rw [spelling, reread]
    exact readsAs_assignment iht ihv
  | literal hv =>
    rw [spelling, reread]
    exact readsAs_literal h hv
  | str s =>
    rw [spelling, reread]
    exact readsAs_str s
  | array hf ih =>
    rw [spelling, reread]
    exact readsAs_array (reading_arguments_spelling h hf ih (.inr rfl))
  | object hlen _ ih =>
    rw [spelling, reread]
    exact readsAs_object (fun vs hvs => hlen.trans (length_of_rereadAll hvs).symm)
      (reading_entries_spelling h hlen ih)

/-! ## filters -/

theorem reading_filterArgs_spelling (h : Heap) {args : List Expr} (ha : ∀ a ∈ args, a.Formed)
    {rest : List Token} (hs : Stops (":" :: expressionMarks) rest) :
    (filterArgs source
        ((spellingAll h args).flatMap (Token.ofSymbol ":" :: ·) ++ rest)).reading =
      (rereadAll args).map (·, rest) := by
  induction args with
  | nil =>
    rw [spellingAll, List.flatMap_nil, List.nil_append, reading_filterArgs, hs ":" (by simp)]
    rfl
  | cons a args ih =>
    have hrest := ih fun a ha' => ha a (List.mem_cons_of_mem _ ha')
    have hcolon := isSpelled_ofSymbol ":"
    have hstop : Stops expressionMarks
        ((spellingAll h args).flatMap (Token.ofSymbol ":" :: ·) ++ rest) := by
      cases args with
      | nil => exact hs.mono (List.subset_cons_self _ _)
      | cons b args =>
        rw [spellingAll, List.flatMap_cons]
        exact .cons hcolon (by decide) _
    have harg := (readsAs_spelling source h (ha a (by simp))).expression hstop
    rw [spellingAll, List.flatMap_cons, List.append_assoc, List.cons_append, reading_filterArgs,
      after_cons_self hcolon, rereadAll]
    simp only [harg]
    cases a.reread with
    | none => rfl
    | some a' =>
      simp only [Option.map_some, Option.bind_some, hrest]
      cases rereadAll args <;> rfl

/-- The tokens of a statement are read as `reread` says, and filters may follow. -/
theorem reading_filtered_spelling (h : Heap) {e : Expr} (he : e.FormedStatement)
    {rest : List Token} (hs : Stops (":" :: expressionMarks) rest) :
    (filtered source (e.spelling h ++ rest)).reading =
      e.reread.bind fun e' => (filterRest source e' rest).reading := by
  induction he generalizing rest with
  | @plain e he =>
    have hexpr := (readsAs_spelling source h he).expression
      (hs.mono (List.subset_cons_self _ _))
    rw [reading_filtered, hexpr]
    cases e.reread <;> rfl
  | @filter input name args _ hn ha ih =>
    have hbar := isSpelled_ofSymbol "|"
    have hargs := reading_filterArgs_spelling source h ha hs
    have hname : (Token.ofWord name).name? = some name := rfl
    rw [spelling, List.append_assoc, List.cons_append, List.cons_append,
      ih (.cons hbar (by decide) _), reread]
    cases input.reread with
    | none => rfl
    | some i =>
      simp only [Option.bind_some]
      rw [reading_filterRest, after_cons_self hbar]
      simp only [reading_name_cons, hname, Option.map_some, Option.bind_some, hargs]
      cases rereadAll args <;> rfl

theorem isFilter_underNots {f : Expr → Expr} (hf : ∀ e, (f e).isFilter = false) (e : Expr) :
    (underNots f e).isFilter = false := by
  fun_induction underNots f e with
  | case1 => rfl
  | case2 => exact hf _

/-- An expression is not read as a filter. -/
theorem isFilter_of_reread {e e' : Expr} (he : e.Formed) (h : e.reread = some e') :
    e'.isFilter = false := by
  have hcalled : ∀ args e, (called args e).isFilter = false := by
    intro args e
    cases e <;> rfl
  cases he with
  | scope | literal | str =>
    rw [reread, Option.some.injEq] at h
    rw [← h]
    rfl
  | callScope | not | array | object =>
    rw [reread] at h
    obtain ⟨_, _, rfl⟩ := Option.map_eq_some_iff.mp h
    rfl
  | member =>
    rw [reread] at h
    obtain ⟨_, _, rfl⟩ := Option.map_eq_some_iff.mp h
    exact isFilter_underNots (fun _ => rfl) _
  | keyed | callMember =>
    rw [reread] at h
    obtain ⟨_, _, h⟩ := Option.bind_eq_some_iff.mp h
    obtain ⟨_, _, rfl⟩ := Option.map_eq_some_iff.mp h
    exact isFilter_underNots (fun _ => rfl) _
  | callFunction =>
    rw [reread] at h
    obtain ⟨_, _, h⟩ := Option.bind_eq_some_iff.mp h
    obtain ⟨_, _, rfl⟩ := Option.map_eq_some_iff.mp h
    exact isFilter_underNots (hcalled _) _
  | binary =>
    rw [reread] at h
    obtain ⟨_, _, h⟩ := Option.bind_eq_some_iff.mp h
    obtain ⟨_, _, rfl⟩ := Option.map_eq_some_iff.mp h
    rfl
  | conditional =>
    rw [reread] at h
    obtain ⟨_, _, h⟩ := Option.bind_eq_some_iff.mp h
    obtain ⟨_, _, h⟩ := Option.bind_eq_some_iff.mp h
    obtain ⟨_, _, rfl⟩ := Option.map_eq_some_iff.mp h
    rfl
  | assign =>
    rw [reread] at h
    obtain ⟨_, _, h⟩ := Option.bind_eq_some_iff.mp h
    split at h
    · obtain ⟨_, _, rfl⟩ := Option.map_eq_some_iff.mp h
      rfl
    · simp at h

theorem isFilter_of_reread_statement {e e' : Expr} (he : e.FormedStatement)
    (h : e.reread = some e') : e'.isFilter = e.isFilter := by
  cases he with
  | plain he =>
    rw [isFilter_of_reread he h]
    cases he <;> rfl
  | filter =>
    rw [reread] at h
    obtain ⟨_, _, h⟩ := Option.bind_eq_some_iff.mp h
    obtain ⟨_, _, rfl⟩ := Option.map_eq_some_iff.mp h
    rfl

/-! ## programs -/

theorem startsUnlike_statement (h : Heap) {e : Expr} (he : e.FormedStatement) :
    StartsUnlike closers (e.spelling h) := by
  induction he with
  | plain he => exact startsUnlike_spelling h he
  | filter _ _ _ ih =>
    rw [spelling]
    exact ih.append _

theorem startsUnlike_chain (h : Heap) {e : Expr} (he : e.FormedStatement) (es : List Expr) :
    StartsUnlike closers ([Token.ofSymbol ";"].intercalate (spellingAll h (e :: es))) := by
  have hfirst := startsUnlike_statement h he
  cases es with
  | nil => rwa [spellingAll, spellingAll, List.intercalate_singleton]
  | cons e₂ es =>
    rw [spellingAll, spellingAll, List.intercalate_cons_cons, List.append_assoc]
    exact hfirst.append _

theorem startsWith_of_unlike {marks : List String} {ts : List Token} (h : StartsUnlike marks ts)
    {s : String} (hs : s ∈ marks) : startsWith s ts = false := by
  obtain ⟨t, rest, rfl, ht⟩ := h
  exact Bool.eq_false_iff.mpr (ht s hs)

theorem skipSemicolons_of_unlike {ts : List Token} (h : StartsUnlike closers ts) :
    skipSemicolons ts = ts := by
  obtain ⟨t, rest, rfl, ht⟩ := h
  exact List.dropWhile_cons_of_neg (ht ";" (by decide))

theorem startsWithCloser_of_unlike {ts : List Token} (h : StartsUnlike closers ts) :
    startsWithCloser ts = false := by
  rw [startsWithCloser, startsWith_of_unlike h (by decide), startsWith_of_unlike h (by decide),
    startsWith_of_unlike h (by decide)]
  rfl

/-- One statement of several. -/
theorem toOption_statements_spelling_cons (h : Heap) {e : Expr} (he : e.FormedStatement)
    (separated : Bool) {rest : List Token} (hs : Stops ("|" :: ":" :: expressionMarks) rest) :
    (statements source separated (e.spelling h ++ rest)).toOption =
      if (separated || startsWith ";" rest) && e.isFilter then none
      else
        e.reread.bind fun e' =>
          (statements source (separated || startsWith ";" rest)
            (skipSemicolons rest)).toOption.map (e' :: ·) := by
  have hstart := (startsUnlike_statement h he).append rest
  have hread := reading_filtered_spelling source h he
    (hs.mono (List.subset_cons_self _ _))
  have hcloser := startsWithCloser_of_unlike hstart
  obtain ⟨t, tail, htail, _⟩ := hstart
  rw [htail] at hread hcloser ⊢
  rw [toOption_statements, hcloser, if_neg (by decide), hread]
  cases hr : e.reread with
  | none => simp only [Option.bind_none, ite_self]
  | some e' =>
    simp only [Option.bind_some]
    rw [reading_filterRest, hs "|" (by simp)]
    simp only [Option.bind_some, isFilter_of_reread_statement he hr]

theorem toOption_statements_spelling (h : Heap) {es : List Expr}
    (hes : ∀ e ∈ es, e.FormedStatement) (separated : Bool) :
    (statements source separated
        ([Token.ofSymbol ";"].intercalate (spellingAll h es))).toOption =
      if (separated || decide (2 ≤ es.length)) && es.any isFilter then none
      else rereadAll es := by
  induction es generalizing separated with
  | nil =>
    rw [spellingAll, rereadAll]
    simpa using toOption_statements_nil source separated
  | cons e es ih =>
    have he := hes e (by simp)
    have hes' : ∀ e ∈ es, e.FormedStatement := fun e' he' => hes e' (List.mem_cons_of_mem e he')
    cases es with
    | nil =>
      have hone := toOption_statements_spelling_cons source h he separated (.nil _)
      rw [List.append_nil] at hone
      rw [spellingAll, spellingAll, List.intercalate_singleton, hone, rereadAll, rereadAll,
        show skipSemicolons [] = [] from rfl, toOption_statements_nil]
      simp [startsWith]
    | cons e₂ es =>
      have hsemi := isSpelled_ofSymbol ";"
      have hsplit : [Token.ofSymbol ";"].intercalate (spellingAll h (e :: e₂ :: es)) =
          e.spelling h ++ Token.ofSymbol ";" ::
            [Token.ofSymbol ";"].intercalate (spellingAll h (e₂ :: es)) := by
        rw [spellingAll, spellingAll, List.intercalate_cons_cons, List.append_assoc]
        rfl
      have hnext := startsUnlike_chain h (hes' e₂ (by simp)) es
      have hskip : skipSemicolons (Token.ofSymbol ";" ::
          [Token.ofSymbol ";"].intercalate (spellingAll h (e₂ :: es))) =
            [Token.ofSymbol ";"].intercalate (spellingAll h (e₂ :: es)) := by
        rw [skipSemicolons, List.dropWhile_cons, if_pos hsemi]
        exact skipSemicolons_of_unlike hnext
      have hstarts : ∀ ts, startsWith ";" (Token.ofSymbol ";" :: ts) = true := fun _ => hsemi
      rw [hsplit, toOption_statements_spelling_cons source h he separated (.cons hsemi (by decide) _),
        hskip, hstarts, ih hes' (separated || true), rereadAll.eq_2 e]
      have htwo : decide (2 ≤ (e :: e₂ :: es).length) = true := decide_eq_true (by simp)
      simp only [htwo, List.any_cons (a := e), Bool.or_true, Bool.true_or, Bool.true_and]
      cases hf : e.isFilter with
      | true => rfl
      | false =>
        cases (e₂ :: es).any isFilter with
        | true => cases e.reread <;> rfl
        | false => rfl

theorem combine_eq_chain {es : List Expr} (h : es.length ≠ 1) : combine es = .chain es := by
  unfold combine
  split
  · next e => exact absurd rfl h
  · rfl

/-- The tokens of a program are read as `reread` says. -/
theorem toOption_program_spelling (h : Heap) {e : Expr} (he : e.FormedProgram) :
    (program source (e.spelling h)).toOption = e.reread := by
  rw [toOption_program]
  cases he with
  | statement he =>
    have hstart := startsUnlike_statement h he
    have hone := toOption_statements_spelling_cons source h he false (.nil _)
    rw [List.append_nil, show skipSemicolons [] = [] from rfl, toOption_statements_nil] at hone
    rw [startsWith_of_unlike hstart (by decide), skipSemicolons_of_unlike hstart, hone]
    cases e.reread <;> rfl
  | @chain es hlen hes =>
    have hall := toOption_statements_spelling source h hes false
    have hstart : startsWith ";" ((Expr.chain es).spelling h) = false ∧
        skipSemicolons ((Expr.chain es).spelling h) = (Expr.chain es).spelling h := by
      rw [spelling]
      cases es with
      | nil => rw [spellingAll]; exact ⟨rfl, rfl⟩
      | cons e es =>
        have hunlike := startsUnlike_chain h (hes e (by simp)) es
        exact ⟨startsWith_of_unlike hunlike (by decide), skipSemicolons_of_unlike hunlike⟩
    rw [hstart.1, hstart.2, spelling, hall, reread]
    cases hany : es.any isFilter with
    | false =>
      simp only [Bool.and_false, Bool.false_eq_true, if_false]
      cases hr : rereadAll es with
      | none => rfl
      | some es' =>
        rw [Option.map_some, combine_eq_chain (by rwa [length_of_rereadAll hr])]
        rfl
    | true =>
      cases es with
      | nil => simp at hany
      | cons e es =>
        have htwo : decide (2 ≤ (e :: es).length) = true := by
          rw [List.length_cons] at hlen ⊢
          exact decide_eq_true (by omega)
        rw [htwo]
        rfl

end Grammar

end TemplateExpr
