import TemplateExpr.Proofs.Grammar.Placement
import TemplateExpr.Proofs.Text.Characters
import TemplateExpr.Proofs.Token.Escapes

/-!
# Texts and their tokens

The scanner as a relation between a text and its tokens, without their places, so that a text can
be put together from pieces.

* `Lexes cs ts`            the text has these tokens;
* `lexes_of_scan`, `scan_of_lexes`   what `Token.scan` says;
* `Boundary rest`          the text goes on after a name or a number;
* `Lexes.word`, `Lexes.plain`, `Lexes.str`   one token in front of a text;
* `Cursor.next_spelled`    a string literal, whichever way it is escaped.
-/

namespace TemplateExpr

/-! ## the relation -/

/-- The tokens of a text, without their places. -/
inductive Lexes : List Char → List Token → Prop where
  | done : Lexes [] []
  | blank {c : Char} {cs : List Char} {ts : List Token} : Text.isBlank c = true → Lexes cs ts →
      Lexes (c :: cs) ts
  | token {c : Char} {cs : List Char} {content : Token.Content} {size : Nat} {ts : List Token} :
      Text.isBlank c = false → Lexeme.scan c cs = .token content size →
      Lexes ((c :: cs).drop size) ts →
      Lexes (c :: cs) (⟨0, String.ofList ((c :: cs).take size), content⟩ :: ts)

namespace Cursor

theorem next_of_blank (source : String) (offset : Nat) {c : Char} (h : Text.isBlank c = true)
    (cs : List Char) : next source ⟨offset, c :: cs⟩ = next source ⟨offset + 1, cs⟩ := by
  simp only [next, skipBlanks, List.takeWhile_cons, List.dropWhile_cons, h, if_true,
    List.length_cons]
  congr 2
  omega

theorem skipBlanks_of_not_blank (offset : Nat) {c : Char} (h : Text.isBlank c = false)
    (cs : List Char) : skipBlanks ⟨offset, c :: cs⟩ = ⟨offset, c :: cs⟩ := by
  simp [skipBlanks, h]

theorem next_of_token (source : String) (offset : Nat) {c : Char} {cs : List Char}
    {content : Token.Content} {size : Nat} (hb : Text.isBlank c = false)
    (h : Lexeme.scan c cs = .token content size) :
    next source ⟨offset, c :: cs⟩ =
      .token ⟨offset, String.ofList ((c :: cs).take size), content⟩
        ⟨offset + size, (c :: cs).drop size⟩ := by
  simp only [next, skipBlanks_of_not_blank offset hb, read, h, advance]

theorem next_of_fault (source : String) (offset : Nat) {c : Char} {cs : List Char}
    {fault : LexFault} {place size : Nat} (hb : Text.isBlank c = false)
    (h : Lexeme.scan c cs = .fault fault place size) :
    next source ⟨offset, c :: cs⟩ =
      .error ⟨fault, offset + place + 1, source⟩ ⟨offset + size, (c :: cs).drop size⟩ := by
  simp only [next, skipBlanks_of_not_blank offset hb, read, h, advance]

/-- What is left to scan after one step. -/
def afterStep (source : String) : Step → Except LexError (List Token)
  | .done _ => .ok []
  | .token t c => (tokens source c).map (t :: ·)
  | .error e _ => .error e

theorem tokens_eq (source : String) (c : Cursor) :
    tokens source c = afterStep source (c.next source) := by
  rw [tokens]
  split
  · next hn => rw [hn, afterStep]
  · next hn => rw [hn, afterStep]
  · next hn => rw [hn, afterStep]

/-- A text that lexes has these tokens from any place on. -/
theorem tokens_of_lexes {cs : List Char} {ts : List Token} (h : Lexes cs ts) (source : String)
    (offset : Nat) :
    ∃ us, tokens source ⟨offset, cs⟩ = .ok us ∧ us.map Token.unplaced = ts := by
  induction h generalizing offset with
  | done => exact ⟨[], by rw [tokens_eq]; rfl, rfl⟩
  | blank hb _ ih =>
    rw [tokens_eq, next_of_blank source offset hb, ← tokens_eq]
    exact ih (offset + 1)
  | @token c cs content size ts hb hs _ ih =>
    obtain ⟨us, hus, hmap⟩ := ih (offset + size)
    rw [tokens_eq, next_of_token source offset hb hs, afterStep, hus]
    exact ⟨_, rfl, by rw [List.map_cons, hmap]; rfl⟩

theorem lexes_of_tokens {source : String} {c : Cursor} {ts : List Token}
    (h : tokens source c = .ok ts) : Lexes c.rest (ts.map Token.unplaced) := by
  obtain ⟨offset, cs⟩ := c
  induction hn : cs.length using Nat.strongRecOn generalizing offset cs ts with
  | _ n ih =>
    rw [tokens_eq] at h
    cases cs with
    | nil =>
      obtain rfl : [] = ts := by simpa [next, skipBlanks, read, afterStep] using h
      exact .done
    | cons d tail =>
      cases hb : Text.isBlank d with
      | true =>
        rw [next_of_blank source offset hb, ← tokens_eq] at h
        exact .blank hb (ih tail.length (by simp [← hn]) _ tail h rfl)
      | false =>
        cases hs : Lexeme.scan d tail with
        | token content size =>
          rw [next_of_token source offset hb hs, afterStep] at h
          cases hr : tokens source ⟨offset + size, (d :: tail).drop size⟩ with
          | error e => rw [hr] at h; simp [Except.map] at h
          | ok us =>
            rw [hr] at h
            obtain rfl : _ :: us = ts := by simpa [Except.map] using h
            have pos := Lexeme.size_scan_pos hs
            refine .token hb hs (ih _ ?_ _ _ hr rfl)
            simp only [List.length_drop, ← hn, List.length_cons]
            omega
        | fault f place size =>
          rw [next_of_fault source offset hb hs, afterStep] at h
          simp at h

end Cursor

theorem scan_of_lexes {source : String} {ts : List Token} (h : Lexes source.toList ts) :
    ∃ us, Token.scan source = .ok us ∧ us.map Token.unplaced = ts :=
  Cursor.tokens_of_lexes h source 0

theorem lexes_of_scan {source : String} {ts : List Token} (h : Token.scan source = .ok ts) :
    Lexes source.toList (ts.map Token.unplaced) :=
  Cursor.lexes_of_tokens h

/-! ## names -/

/-- A text that neither a name nor a number before it goes on into. -/
def Boundary (rest : List Char) : Prop :=
  (∀ c ∈ rest.head?, isNamePart c = false) ∧
    ∀ d ∈ rest.tail.head?, rest.head? = some '.' → d.isDigit = false

theorem Boundary.nil : Boundary [] := ⟨by simp, by simp⟩

theorem Boundary.cons {c : Char} (hc : isNamePart c = false) (hp : c ≠ '.') (rest : List Char) :
    Boundary (c :: rest) := by
  refine ⟨?_, ?_⟩
  · intro d hd
    obtain rfl : c = d := by simpa using hd
    exact hc
  · intro d _ h
    exact absurd (by simpa using h) hp

theorem Boundary.point {c : Char} (h : isNameStart c = true) (rest : List Char) :
    Boundary ('.' :: c :: rest) := by
  refine ⟨?_, ?_⟩
  · intro d hd
    obtain rfl : '.' = d := by simpa using hd
    decide
  · intro d hd _
    obtain rfl : c = d := by simpa using hd
    exact not_isDigit_of_isNameStart h

def Token.ofWord (name : String) : Token := ⟨0, name, .word⟩

def Token.ofSymbol (spelling : String) : Token := ⟨0, spelling, .symbol⟩

/-- A string literal as a tree writes it. -/
def Token.ofString (s : String) : Token := ⟨0, Text.quoted s, .str s⟩

/-- A text that is scanned as one token. -/
theorem Lexes.of_scan {c : Char} {cs text rest : List Char} {content : Token.Content}
    {ts : List Token} (he : text ++ rest = c :: cs) (hb : Text.isBlank c = false)
    (hs : Lexeme.scan c cs = .token content text.length) (h : Lexes rest ts) :
    Lexes (text ++ rest) (⟨0, String.ofList text, content⟩ :: ts) := by
  have hdrop : (c :: cs).drop text.length = rest := by rw [← he, List.drop_left]
  have htake : (c :: cs).take text.length = text := by rw [← he, List.take_left]
  have ht := Lexes.token hb hs (hdrop.symm ▸ h)
  rwa [htake, ← he] at ht

theorem Lexes.word {name : String} {rest : List Char} {ts : List Token}
    (hn : isName name.toList = true) (hb : Boundary rest) (h : Lexes rest ts) :
    Lexes (name.toList ++ rest) (Token.ofWord name :: ts) := by
  cases hcs : name.toList with
  | nil => rw [hcs] at hn; simp [isName] at hn
  | cons c cs =>
    rw [hcs] at hn
    obtain ⟨hc, hall⟩ := isName_cons.mp hn
    have hs : Lexeme.scan c (cs ++ rest) = .token .word (c :: cs).length := by
      rw [Lexeme.scan, if_pos hc, (takeWhile_append_boundary hall hb.1).1, List.length_cons,
        Nat.add_comm]
    have ht := Lexes.of_scan (List.cons_append ..) (not_isBlank_of_isNameStart hc) hs h
    rw [← hcs, String.ofList_toList, hcs] at ht
    exact ht

/-! ## symbols -/

/-- A character that can only start a symbol. -/
def IsMark (c : Char) : Prop :=
  isNameStart c = false ∧ c.isDigit = false ∧ c ≠ '"' ∧ c ≠ '\'' ∧ Text.isBlank c = false

instance (c : Char) : Decidable (IsMark c) := inferInstanceAs (Decidable (_ ∧ _))

theorem Lexes.symbol {c : Char} {cs rest : List Char} {s : String} {ts : List Token}
    (hc : IsMark c) (hp : c ≠ '.' ∨ cs.head?.any Char.isDigit = false)
    (hl : Lexeme.symbolLength? c cs = some s.toList.length) (he : s.toList ++ rest = c :: cs)
    (h : Lexes rest ts) : Lexes (c :: cs) (Token.ofSymbol s :: ts) := by
  obtain ⟨hstart, hd, hq, hq', hb⟩ := hc
  have hn : Lexeme.startsNumber c cs = false := by
    rw [Lexeme.startsNumber, hd, Bool.false_or]
    rcases hp with hp | hp
    · rw [beq_eq_false_iff_ne.mpr hp, Bool.false_and]
    · rw [hp, Bool.and_false]
  have hs : Lexeme.scan c cs = .token .symbol s.toList.length := by
    rw [Lexeme.scan, hstart, hn, hl]
    simp [hq, hq']
  have ht := Lexes.of_scan he hb hs h
  rwa [he, String.ofList_toList] at ht

/-- A symbol of one character that is not a point. -/
theorem Lexes.plain {s : String} {c : Char} (hs : s.toList = [c]) (hc : c ∈ Lexeme.plainSymbols)
    (hp : c ≠ '.') {rest : List Char} {ts : List Token} (h : Lexes rest ts) :
    Lexes (c :: rest) (Token.ofSymbol s :: ts) := by
  have marks : Lexeme.plainSymbols.all (fun c => decide (IsMark c)) = true := by decide
  have hmark : IsMark c := of_decide_eq_true (List.all_eq_true.mp marks c hc)
  refine Lexes.symbol hmark (.inl hp) ?_ (by rw [hs]; rfl) h
  rw [Lexeme.symbolLength?, if_pos (by simpa using hc), hs]
  rfl

theorem Lexes.point {c : Char} (hc : isNameStart c = true) {rest : List Char} {ts : List Token}
    (h : Lexes (c :: rest) ts) : Lexes ('.' :: c :: rest) (Token.ofSymbol "." :: ts) := by
  exact Lexes.symbol (by decide) (.inr (not_isDigit_of_isNameStart hc)) rfl rfl h

theorem Lexes.space {rest : List Char} {ts : List Token} (h : Lexes rest ts) :
    Lexes (' ' :: rest) ts := .blank (by decide) h

/-- A negation before a text that is no equals sign. -/
theorem Lexes.negation {rest : List Char} {ts : List Token} (hr : rest.head? ≠ some '=')
    (h : Lexes rest ts) : Lexes ('!' :: rest) (Token.ofSymbol "!" :: ts) := by
  refine Lexes.symbol (by decide) (.inl (by decide)) ?_ rfl h
  have hl : Lexeme.symbolLength? '!' rest = some (if rest.head? = some '=' then 2 else 1) := rfl
  rw [hl, if_neg hr]
  rfl

/-- A symbol with a space behind it. -/
theorem Lexes.spaced {s : String} {c : Char} {cs : List Char} (hs : s.toList = c :: cs)
    (hm : IsMark c ∧ c ≠ '.') {rest : List Char} {ts : List Token}
    (hl : Lexeme.symbolLength? c (cs ++ ' ' :: rest) = some (c :: cs).length) (h : Lexes rest ts) :
    Lexes (s.toList ++ ' ' :: rest) (Token.ofSymbol s :: ts) := by
  rw [hs]
  refine Lexes.symbol hm.1 (.inl hm.2) (hs ▸ hl) ?_ h.space
  rw [hs]
  rfl

theorem Lexes.operator (op : BinOp) {rest : List Char} {ts : List Token} (h : Lexes rest ts) :
    Lexes (op.symbol.toList ++ ' ' :: rest) (Token.ofSymbol op.symbol :: ts) := by
  cases op with
  | equal => exact .spaced (show _ = ['=', '='] from rfl) (by decide) rfl h
  | notEqual => exact .spaced (show _ = ['!', '='] from rfl) (by decide) rfl h
  | and => exact .spaced (show _ = ['&', '&'] from rfl) (by decide) rfl h
  | or => exact .spaced (show _ = ['|', '|'] from rfl) (by decide) rfl h
  | relation op =>
    cases op with
    | less => exact .spaced (show _ = ['<'] from rfl) (by decide) rfl h
    | greater => exact .spaced (show _ = ['>'] from rfl) (by decide) rfl h
    | lessEqual => exact .spaced (show _ = ['<', '='] from rfl) (by decide) rfl h
    | greaterEqual => exact .spaced (show _ = ['>', '='] from rfl) (by decide) rfl h
  | arith op =>
    cases op with
    | add => exact .spaced (show _ = ['+'] from rfl) (by decide) rfl h
    | subtract => exact .spaced (show _ = ['-'] from rfl) (by decide) rfl h
    | multiply => exact .spaced (show _ = ['*'] from rfl) (by decide) rfl h
    | divide => exact .spaced (show _ = ['/'] from rfl) (by decide) rfl h
    | floorDivide => exact .spaced (show _ = ['~', '/'] from rfl) (by decide) rfl h
    | modulo => exact .spaced (show _ = ['%'] from rfl) (by decide) rfl h

/-! ## strings -/

/-- A text between quotes is one token, whichever way each of its characters is written. -/
theorem Lexeme.scan_pieces {quote : Char} (hquote : quote = '"' ∨ quote = '\'') {s : String}
    {pieces : List (List Char)} (h : List.Forall₂ (Quotation.Spells quote) s.toList pieces)
    (rest : List Char) :
    scan quote (pieces.flatten ++ quote :: rest) =
      .token (.str s) (quote :: pieces.flatten ++ [quote]).length := by
  have hclass : isNameStart quote = false ∧ quote.isDigit = false ∧ quote ≠ '.' ∧
      quote ≠ '\\' := by
    rcases hquote with rfl | rfl <;> decide
  obtain ⟨hstart, hdigit, hpoint, hescape⟩ := hclass
  have hnumber : startsNumber quote (pieces.flatten ++ quote :: rest) = false := by
    rw [startsNumber, hdigit, beq_eq_false_iff_ne.mpr hpoint]
    rfl
  rw [scan, hstart, hnumber, if_neg (by decide), if_neg (by decide), if_pos hquote, scanQuotation,
    Quotation.scan_pieces hescape h]
  simp only [String.ofList_toList, List.length_append, List.length_cons, List.length_nil]
  congr 1
  omega

theorem toList_quoted (s : String) :
    (Text.quoted s).toList = '"' :: Text.escape s.toList ++ ['"'] := by
  rw [Text.quoted, String.toList_ofList]

theorem Lexes.str (s : String) {rest : List Char} {ts : List Token} (h : Lexes rest ts) :
    Lexes ((Text.quoted s).toList ++ rest) (Token.ofString s :: ts) := by
  obtain ⟨pieces, hpieces, hflatten⟩ := Quotation.exists_pieces_escape s.toList
  have hs := Lexeme.scan_pieces (.inl rfl) hpieces rest
  rw [hflatten, ← toList_quoted] at hs
  have hq : (Text.quoted s).toList ++ rest = '"' :: (Text.escape s.toList ++ '"' :: rest) := by
    rw [toList_quoted, List.append_assoc]
    rfl
  have ht := Lexes.of_scan hq (by decide) hs h
  rwa [String.ofList_toList] at ht

/-- **The scanner undoes every escaping.** A text between quotes is one token with the text as its
content, whichever way each character is written and whatever follows, and the cursor then stands
behind the closing quote. This holds of `Text.quoted` in particular. -/
theorem Cursor.next_spelled {quote : Char} (hquote : quote = '"' ∨ quote = '\'') (s : String)
    (source : String) (offset : Nat) (rest : List Char) :
    (∀ pieces, List.Forall₂ (Quotation.Spells quote) s.toList pieces →
      next source ⟨offset, quote :: pieces.flatten ++ quote :: rest⟩ =
        .token ⟨offset, String.ofList (quote :: pieces.flatten ++ [quote]), .str s⟩
          ⟨offset + (quote :: pieces.flatten ++ [quote]).length, rest⟩) ∧
    next source ⟨offset, (Text.quoted s).toList ++ rest⟩ =
      .token ⟨offset, Text.quoted s, .str s⟩ ⟨offset + (Text.quoted s).length, rest⟩ := by
  have hnext : ∀ {q : Char}, q = '"' ∨ q = '\'' → ∀ {pieces : List (List Char)},
      List.Forall₂ (Quotation.Spells q) s.toList pieces →
      next source ⟨offset, q :: pieces.flatten ++ q :: rest⟩ =
        .token ⟨offset, String.ofList (q :: pieces.flatten ++ [q]), .str s⟩
          ⟨offset + (q :: pieces.flatten ++ [q]).length, rest⟩ := by
    intro q hq pieces hpieces
    have hblank : Text.isBlank q = false := by rcases hq with rfl | rfl <;> decide
    have htext : q :: (pieces.flatten ++ q :: rest) = (q :: pieces.flatten ++ [q]) ++ rest := by
      simp
    rw [List.cons_append, next_of_token source offset hblank (Lexeme.scan_pieces hq hpieces rest),
      htext, List.take_left, List.drop_left]
  refine ⟨fun pieces hpieces => hnext hquote hpieces, ?_⟩
  obtain ⟨pieces, hpieces, hflatten⟩ := Quotation.exists_pieces_escape s.toList
  have hquoted := hnext (.inl rfl) hpieces
  rw [hflatten, ← toList_quoted, String.ofList_toList, String.length_toList] at hquoted
  rw [← hquoted, toList_quoted, List.append_assoc]
  rfl

/-- A capital digit beside a small one, a quote of the other kind, a backslash, a tabulator and a
letter that needs no escape, before more text. -/
theorem Cursor.next_spelled_mixed :
    List.Forall₂ (Quotation.Spells '\'') "ï\"\\\tA".toList
        ["\\u00eF".toList, "\"".toList, "\\\\".toList, "\\t".toList, "\\A".toList] ∧
      next "x='\\u00eF\"\\\\\\t\\A'+1" ⟨2, "'\\u00eF\"\\\\\\t\\A'+1".toList⟩ =
        .token ⟨2, "'\\u00eF\"\\\\\\t\\A'", .str "ï\"\\\tA"⟩ ⟨17, ['+', '1']⟩ := by
  have hcode : List.Forall₂ Quotation.IsDigitOf (Quotation.places 'ï'.toNat)
      ['0', '0', 'e', 'F'] := by
    simp [Quotation.IsDigitOf, Quotation.places, Nat.digitChar]
  have hpieces : List.Forall₂ (Quotation.Spells '\'') "ï\"\\\tA".toList
      ["\\u00eF".toList, "\"".toList, "\\\\".toList, "\\t".toList, "\\A".toList] :=
    .cons (.code (by decide) hcode) <| .cons (.raw (by decide) (by decide)) <|
      .cons (.kept (by decide)) <| .cons (.named (by decide)) <| .cons (.kept (by decide)) .nil
  exact ⟨hpieces, (Cursor.next_spelled (.inr rfl) _ _ 2 ['+', '1']).1 _ hpieces⟩

/-! ## the words of a text -/

theorem Lexeme.isName_of_scan {c : Char} {cs : List Char} {size : Nat}
    (h : scan c cs = .token .word size) : isName ((c :: cs).take size) = true := by
  unfold scan at h
  split at h
  · next hc =>
    simp only [token.injEq, true_and] at h
    rw [← h, Nat.add_comm, List.take_succ_cons, isName_cons]
    refine ⟨hc, fun d hd => ?_⟩
    have htake : cs.take (cs.takeWhile isNamePart).length = cs.takeWhile isNamePart :=
      List.prefix_iff_eq_take.mp (List.takeWhile_prefix isNamePart) |>.symm
    rw [htake] at hd
    exact List.all_eq_true.mp List.all_takeWhile d hd
  · split at h
    · unfold scanNumber numberToken at h
      grind
    · split at h
      · unfold scanQuotation at h
        split at h <;> simp at h
      · split at h <;> simp at h

theorem formed_of_lexes {cs : List Char} {ts : List Token} (h : Lexes cs ts) :
    ∀ t ∈ ts, Token.Formed t := by
  induction h with
  | done => simp
  | blank _ _ ih => exact ih
  | token _ hs _ ih =>
    intro t ht
    rcases List.mem_cons.mp ht with rfl | ht
    · intro hw
      simp only at hw
      rw [hw] at hs
      rw [String.toList_ofList]
      exact Lexeme.isName_of_scan hs
    · exact ih t ht

end TemplateExpr
