import TemplateExpr.Proofs.Expr.Formed
import TemplateExpr.Proofs.Token.Extent

/-!
# Tokens and the blanks between them

A source text is the texts of its tokens with blanks before, between and after them, and the blanks
do not matter.

* `Laid offset cs ts`      the tokens stand in the text that begins at `offset`;
* `Token.gaps`             what stands before, between and after tokens in their source;
* `weave gaps texts`       gaps and texts in turn;
* `Spacing count gaps`     runs of blanks that keep `count` tokens apart;
* `Lexes.respaced`         the same tokens with other blanks between them;
* `Token.scan_gaps_respaced`   the scanner loses nothing, and other blanks change nothing.
-/

namespace TemplateExpr

/-! ## tokens in their places -/

/-- The text that begins at `offset` is blanks and these tokens, each at its place. -/
inductive Laid : Nat → List Char → List Token → Prop where
  | done {offset : Nat} {gap : List Char} : (∀ c ∈ gap, Text.isBlank c = true) →
      Laid offset gap []
  | token {offset : Nat} {gap text rest : List Char} {content : Token.Content}
      {ts : List Token} : (∀ c ∈ gap, Text.isBlank c = true) → text ≠ [] →
      Laid (offset + gap.length + text.length) rest ts →
      Laid offset (gap ++ (text ++ rest)) (⟨offset + gap.length, String.ofList text, content⟩ :: ts)

namespace Laid

theorem blank {offset : Nat} {c : Char} {cs : List Char} {ts : List Token}
    (hc : Text.isBlank c = true) (h : Laid (offset + 1) cs ts) : Laid offset (c :: cs) ts := by
  cases h with
  | done hgap => exact .done (List.forall_mem_cons.mpr ⟨hc, hgap⟩)
  | @token _ gap text rest content ts hgap hne hrest =>
    have hplace : offset + 1 + gap.length = offset + (c :: gap).length := by
      rw [List.length_cons]
      omega
    rw [hplace] at hrest ⊢
    exact .token (List.forall_mem_cons.mpr ⟨hc, hgap⟩) hne hrest

theorem le_index {offset : Nat} {cs : List Char} {ts : List Token} (h : Laid offset cs ts) :
    ∀ t ∈ ts, offset ≤ t.index := by
  induction h with
  | done => simp
  | token _ _ _ ih =>
    intro t ht
    rcases List.mem_cons.mp ht with rfl | ht
    · exact Nat.le_add_right _ _
    · have := ih t ht
      omega

theorem pairwise_index {offset : Nat} {cs : List Char} {ts : List Token}
    (h : Laid offset cs ts) : ts.Pairwise (·.index < ·.index) := by
  induction h with
  | done => exact .nil
  | @token offset gap text rest content ts _ hne hrest ih =>
    refine .cons (fun t ht => ?_) ih
    have hle := hrest.le_index t ht
    have hpos := List.length_pos_iff.mpr hne
    show offset + gap.length < t.index
    omega

/-- Each token is the piece of the source at its place. -/
theorem text_eq {offset : Nat} {cs : List Char} {ts : List Token} (h : Laid offset cs ts)
    (before : List Char) (hb : before.length = offset) :
    ∀ t ∈ ts, t.text ≠ "" ∧
      t.text.toList = ((before ++ cs).drop t.index).take t.text.length := by
  induction h generalizing before with
  | done => simp
  | @token offset gap text rest content ts _ hne _ ih =>
    intro t ht
    rcases List.mem_cons.mp ht with rfl | ht
    · have hsplit : before ++ (gap ++ (text ++ rest)) = (before ++ gap) ++ (text ++ rest) := by
        rw [List.append_assoc]
      have hplace : offset + gap.length = (before ++ gap).length := by
        rw [List.length_append, hb]
      refine ⟨fun hempty => hne ?_, ?_⟩
      · rw [← String.toList_ofList (l := text), show String.ofList text = "" from hempty]
        rfl
      · show (String.ofList text).toList = _
        rw [hplace, hsplit, List.drop_left, String.length_ofList, List.take_left,
          String.toList_ofList]
    · have hlength : (before ++ gap ++ text).length = offset + gap.length + text.length := by
        simp only [List.length_append, hb]
      have hrest := ih _ hlength t ht
      simpa only [List.append_assoc] using hrest

end Laid

/-- A text that lexes is scanned from any place on, with its tokens at their places. -/
theorem Cursor.laid_of_lexes {cs : List Char} {us : List Token} (h : Lexes cs us)
    (source : String) :
    ∀ offset, ∃ ts, tokens source ⟨offset, cs⟩ = .ok ts ∧ Laid offset cs ts := by
  refine Lexes.pieces ?done ?blank ?token h
  case done =>
    intro offset
    exact ⟨[], by rw [tokens_eq]; rfl, .done (by simp)⟩
  case blank =>
    intro c cs ts hb ih offset
    obtain ⟨ts, hts, hlaid⟩ := ih (offset + 1)
    exact ⟨ts, by rw [tokens_eq, next_of_blank source offset hb, ← tokens_eq, hts], .blank hb hlaid⟩
  case token =>
    intro c text r content us hb hs ih offset
    obtain ⟨ts, hts, hlaid⟩ := ih (offset + (c :: text).length)
    have hnext := next_of_token source offset hb hs
    rw [← List.cons_append, List.drop_left, List.take_left] at hnext
    refine ⟨_, by rw [tokens_eq, hnext, afterStep, hts]; rfl, ?_⟩
    exact @Laid.token offset [] (c :: text) r content ts (by simp) (by simp) hlaid

theorem laid_of_scan {source : String} {ts : List Token} (h : Token.scan source = .ok ts) :
    Laid 0 source.toList ts := by
  obtain ⟨us, hus, hlaid⟩ := Cursor.laid_of_lexes (lexes_of_scan h) source 0
  obtain rfl : ts = us := Except.ok.inj (h.symm.trans hus)
  exact hlaid

/-! ## gaps -/

/-- What stands in the source from a place on before, between and after tokens. -/
def Token.gaps (source : List Char) : Nat → List Token → List (List Char)
  | start, [] => [source.drop start]
  | start, t :: ts =>
    (source.drop start).take (t.index - start) :: gaps source (t.index + t.text.length) ts

/-- Gaps and texts in turn, a gap first. -/
def weave : List (List Char) → List String → List Char
  | gap :: gaps, text :: texts => gap ++ (text.toList ++ weave gaps texts)
  | gaps, [] => gaps.flatten
  | [], texts => texts.flatMap String.toList

/-- The gaps of tokens in their places are blank, and with their texts they are the source. -/
theorem Laid.gaps {offset : Nat} {cs : List Char} {ts : List Token} (h : Laid offset cs ts)
    (before : List Char) (hb : before.length = offset) :
    (∀ gap ∈ Token.gaps (before ++ cs) offset ts, ∀ c ∈ gap, Text.isBlank c = true) ∧
      weave (Token.gaps (before ++ cs) offset ts) (ts.map Token.text) = cs := by
  induction h generalizing before with
  | @done offset gap hgap =>
    rw [Token.gaps, ← hb, List.drop_left]
    exact ⟨by simpa using hgap, by simp [weave]⟩
  | @token offset gap text rest content ts hgap _ _ ih =>
    have hlength : (before ++ gap ++ text).length = offset + gap.length + text.length := by
      simp only [List.length_append, hb]
    obtain ⟨hblank, hweave⟩ := ih _ hlength
    have hfirst : ((before ++ (gap ++ (text ++ rest))).drop offset).take
        (offset + gap.length - offset) = gap := by
      rw [← hb, List.drop_left, Nat.add_sub_cancel_left, List.take_left]
    rw [Token.gaps, List.map_cons, weave]
    dsimp only
    rw [hfirst, String.length_ofList, String.toList_ofList]
    simp only [List.append_assoc] at hblank hweave
    exact ⟨List.forall_mem_cons.mpr ⟨hgap, hblank⟩, by rw [hweave]⟩

/-! ## other blanks -/

/-- Runs of blanks before, between and after `count` tokens, so that no two of them touch. -/
structure Spacing (count : Nat) (gaps : List (List Char)) : Prop where
  length : gaps.length = count + 1
  blank : ∀ gap ∈ gaps, ∀ c ∈ gap, Text.isBlank c = true
  apart : ∀ gap ∈ gaps.tail.dropLast, gap ≠ []

theorem isSeparator_of_isBlank {c : Char} (h : Text.isBlank c = true) : isSeparator c = true := by
  rw [isSeparator, h, Bool.true_or]

theorem Separated.of_blank {gap rest : List Char} (hgap : ∀ c ∈ gap, Text.isBlank c = true)
    (hne : gap ≠ [] ∨ rest = []) : Separated (gap ++ rest) := by
  cases gap with
  | nil =>
    obtain rfl : rest = [] := hne.resolve_left (fun h => h rfl)
    exact .nil
  | cons c gap => exact .cons (isSeparator_of_isBlank (hgap c (by simp))) (gap ++ rest)

theorem Lexes.blanks {gap rest : List Char} {ts : List Token}
    (hgap : ∀ c ∈ gap, Text.isBlank c = true) (h : Lexes rest ts) : Lexes (gap ++ rest) ts := by
  induction gap with
  | nil => exact h
  | cons c gap ih =>
    exact .blank (hgap c (by simp)) (ih fun d hd => hgap d (List.mem_cons_of_mem c hd))

/-- **The tokens of a text are those of their texts with any blanks between them.** -/
theorem Lexes.respaced {cs : List Char} {ts us : List Token} (h : Lexes cs ts)
    (hsub : ∀ u ∈ us, u ∈ ts) {gaps : List (List Char)} (hs : Spacing us.length gaps) :
    Lexes (weave gaps (us.map Token.text)) us := by
  induction us generalizing gaps with
  | nil =>
    obtain ⟨gap, rfl⟩ := List.length_eq_one_iff.mp hs.length
    have hall : ∀ c ∈ gap, Text.isBlank c = true := hs.blank gap (by simp)
    rw [List.map_nil, weave, List.flatten_singleton, ← List.append_nil gap]
    exact .blanks hall .done
  | cons u us ih =>
    obtain ⟨hlength, hblank, hapart⟩ := hs
    obtain ⟨gap, gap', gaps, rfl⟩ : ∃ gap gap' rest, gaps = gap :: gap' :: rest := by
      match gaps, hlength with
      | gap :: gap' :: rest, _ => exact ⟨gap, gap', rest, rfl⟩
    have htail : Spacing us.length (gap' :: gaps) := by
      refine ⟨by simpa using hlength, fun g hg => hblank g (List.mem_cons_of_mem gap hg), ?_⟩
      intro g hg
      refine hapart g ?_
      cases gaps with
      | nil => simp at hg
      | cons next gaps =>
        rw [List.tail_cons, List.dropLast_cons_of_ne_nil (by simp)]
        exact List.mem_cons_of_mem gap' hg
    have hrest := ih (fun v hv => hsub v (List.mem_cons_of_mem u hv)) htail
    have hseparated : Separated (weave (gap' :: gaps) (us.map Token.text)) := by
      cases us with
      | nil =>
        obtain rfl : gaps = [] := by simpa using hlength
        rw [List.map_nil, weave, List.flatten_singleton, ← List.append_nil gap']
        exact .of_blank (hblank gap' (by simp)) (.inr rfl)
      | cons v us =>
        have hne : gap' ≠ [] := by
          refine hapart gap' ?_
          cases gaps with
          | nil => simp at hlength
          | cons next gaps => simp
        exact .of_blank (hblank gap' (by simp)) (.inl hne)
    rw [List.map_cons, weave]
    exact .blanks (hblank gap (by simp)) (h.alone hseparated hrest u (hsub u (by simp)))

/-! ## the scanner -/

/-- Texts whose tokens differ in their places only have the same trees. -/
theorem Expr.parse_of_alike {source source' : String} {ts us : List Token}
    (hts : Token.scan source = .ok ts) (hus : Token.scan source' = .ok us)
    (h : us.map Token.unplaced = ts.map Token.unplaced) {e : Expr}
    (parsed : Expr.parse source = .ok e) : Expr.parse source' = .ok e := by
  obtain ⟨ts', hts', hprogram⟩ := Expr.parse_eq_ok_iff.mp parsed
  obtain rfl : ts = ts' := Except.ok.inj (hts.symm.trans hts')
  have halike : Grammar.Alike us ts := h
  have hformed : ∀ t ∈ ts, Token.Formed t := fun t ht => (scanned_of_scan hts t ht).1
  refine Expr.parse_eq_ok_iff.mpr ⟨us, hus, ?_⟩
  rw [halike.program hformed source source', hprogram]

theorem map_text_unplaced (ts : List Token) :
    (ts.map Token.unplaced).map Token.text = ts.map Token.text := by
  rw [List.map_map]
  rfl

/-- **The scanner loses nothing, and the blanks between tokens do not matter.** -/
theorem Token.scan_gaps_respaced {source : String} {ts : List Token}
    (h : Token.scan source = .ok ts) :
    ts.Pairwise (·.index < ·.index) ∧
      (∀ t ∈ ts, t.text ≠ "" ∧
        t.text.toList = (source.toList.drop t.index).take t.text.length) ∧
      (∀ gap ∈ Token.gaps source.toList 0 ts, ∀ c ∈ gap, Text.isBlank c = true) ∧
      weave (Token.gaps source.toList 0 ts) (ts.map Token.text) = source.toList ∧
      ∀ gaps, Spacing ts.length gaps →
        (∃ us, Token.scan (String.ofList (weave gaps (ts.map Token.text))) = .ok us ∧
          us.map Token.text = ts.map Token.text ∧ us.map Token.name? = ts.map Token.name? ∧
          us.map Token.content = ts.map Token.content) ∧
        ∀ e, Expr.parse source = .ok e →
          Expr.parse (String.ofList (weave gaps (ts.map Token.text))) = .ok e := by
  have hlaid := laid_of_scan h
  obtain ⟨hblank, hweave⟩ := hlaid.gaps [] rfl
  refine ⟨hlaid.pairwise_index, hlaid.text_eq [] rfl, hblank, hweave, ?_⟩
  intro gaps hgaps
  have hlexes : Lexes (String.ofList (weave gaps (ts.map Token.text))).toList
      (ts.map Token.unplaced) := by
    rw [String.toList_ofList, ← map_text_unplaced]
    exact (lexes_of_scan h).respaced (fun _ hu => hu) (by rwa [List.length_map])
  obtain ⟨us, hus, hmap⟩ := scan_of_lexes hlexes
  have hview : ∀ {α : Type} (f : Token → α), (∀ t, f t.unplaced = f t) →
      us.map f = ts.map f := by
    intro α f hf
    have hcomp : f ∘ Token.unplaced = f := funext hf
    have hboth := congrArg (List.map f) hmap
    rwa [List.map_map, List.map_map, hcomp] at hboth
  refine ⟨⟨us, hus, hview _ fun _ => rfl, hview _ fun _ => rfl, hview _ fun _ => rfl⟩, ?_⟩
  intro e parsed
  exact Expr.parse_of_alike h hus hmap parsed

/-- The tokens of a pipe, set apart by blanks of several kinds. -/
theorem Token.scan_gaps_respaced_pipe :
    Token.scan "a>=1|f:b" = .ok [⟨0, "a", .word⟩, ⟨1, ">=", .symbol⟩, ⟨3, "1", .number (.int 1)⟩,
        ⟨4, "|", .symbol⟩, ⟨5, "f", .word⟩, ⟨6, ":", .symbol⟩, ⟨7, "b", .word⟩] ∧
      Spacing 7 [[], [' '], ['\t'], ['\n', ' '], [' '], [' '], [' ', ' '], ['\r']] ∧
      Expr.parse "a >=\t1\n | f :  b\r" = .ok (.filter
        (.binary (.relation .greaterEqual) (.scope "a") (.literal (.int 1))) "f" [.scope "b"]) := by
  have scanned : Token.scan "a>=1|f:b" = .ok [⟨0, "a", .word⟩, ⟨1, ">=", .symbol⟩,
      ⟨3, "1", .number (.int 1)⟩, ⟨4, "|", .symbol⟩, ⟨5, "f", .word⟩, ⟨6, ":", .symbol⟩,
      ⟨7, "b", .word⟩] := by cbv
  have hspace : Text.isBlank ' ' = true := rfl
  have htab : Text.isBlank '\t' = true := rfl
  have hline : Text.isBlank '\n' = true := rfl
  have hreturn : Text.isBlank '\r' = true := rfl
  have spaced : Spacing 7 [[], [' '], ['\t'], ['\n', ' '], [' '], [' '], [' ', ' '], ['\r']] :=
    ⟨rfl, by simp [hspace, htab, hline, hreturn], by simp⟩
  obtain ⟨_, _, _, _, hrespaced⟩ := Token.scan_gaps_respaced scanned
  exact ⟨scanned, spaced, (hrespaced _ spaced).2 _ (by cbv)⟩

end TemplateExpr
