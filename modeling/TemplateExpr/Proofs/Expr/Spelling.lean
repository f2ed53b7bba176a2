import TemplateExpr.Proofs.Expr.Formed

/-!
# The tokens of a rendered tree

* `Expr.spelling`           the tokens that a tree is written as;
* `Expr.spelled_render`     the text of an expression is scanned as these;
* `Expr.lexes_program`      and so is the text of a whole program.
-/

namespace TemplateExpr

/-- The token of a literal. Only null, booleans and numbers are written as one. -/
def literalToken (h : Heap) : Value → Token
  | .int n => .ofNumber (literalText h (.int n)) (.int n)
  | .float x => .ofNumber (literalText h (.float x)) (.float x)
  | v => .ofWord (literalText h v)

/-- The token of a key. -/
def keyToken (key : String) : Token :=
  if isName key.toList then .ofWord key else .ofString key

/-- Lists of tokens with commas between them. -/
def commaSeparated (tss : List (List Token)) : List Token := [Token.ofSymbol ","].intercalate tss

theorem commaSeparated_nil : commaSeparated [] = [] := rfl

theorem commaSeparated_singleton (ts : List Token) : commaSeparated [ts] = ts :=
  List.intercalate_singleton

theorem commaSeparated_cons_cons (ts us : List Token) (tss : List (List Token)) :
    commaSeparated (ts :: us :: tss) = ts ++ Token.ofSymbol "," :: commaSeparated (us :: tss) := by
  rw [commaSeparated, List.intercalate_cons_cons, List.append_assoc]
  rfl

namespace Expr

mutual

def spelling (h : Heap) : Expr → List Token
  | scope name => [.ofWord name]
  | member receiver name => spelling h receiver ++ [.ofSymbol ".", .ofWord name]
  | keyed receiver key =>
    spelling h receiver ++ .ofSymbol "[" :: (spelling h key ++ [.ofSymbol "]"])
  | callScope name args =>
    .ofWord name :: .ofSymbol "(" :: (commaSeparated (spellingAll h args) ++ [.ofSymbol ")"])
  | callMember receiver name args =>
    spelling h receiver ++ .ofSymbol "." :: .ofWord name :: .ofSymbol "(" ::
      (commaSeparated (spellingAll h args) ++ [.ofSymbol ")"])
  | callFunction callee args =>
    spelling h callee ++ .ofSymbol "(" ::
      (commaSeparated (spellingAll h args) ++ [.ofSymbol ")"])
  | binary op left right =>
    .ofSymbol "(" ::
      (spelling h left ++ .ofSymbol op.symbol :: (spelling h right ++ [.ofSymbol ")"]))
  | not operand => .ofSymbol "!" :: spelling h operand
  | conditional condition yes no =>
    .ofSymbol "(" :: (spelling h condition ++ .ofSymbol "?" ::
      (spelling h yes ++ .ofSymbol ":" :: (spelling h no ++ [.ofSymbol ")"])))
  | assign target value =>
    .ofSymbol "(" :: (spelling h target ++ .ofSymbol "=" :: (spelling h value ++ [.ofSymbol ")"]))
  | literal v => [literalToken h v]
  | str s => [.ofString s]
  | array elements => .ofSymbol "[" :: (commaSeparated (spellingAll h elements) ++ [.ofSymbol "]"])
  | object keys values =>
    .ofSymbol "\x7b" :: (commaSeparated (spellingEntries h keys values) ++ [.ofSymbol "\x7d"])
  | filter input name args =>
    spelling h input ++ .ofSymbol "|" :: .ofWord name ::
      (spellingAll h args).flatMap (.ofSymbol ":" :: ·)
  | chain statements => [Token.ofSymbol ";"].intercalate (spellingAll h statements)

def spellingAll (h : Heap) : List Expr → List (List Token)
  | [] => []
  | e :: rest => spelling h e :: spellingAll h rest

def spellingEntries (h : Heap) : List String → List Expr → List (List Token)
  | key :: keys, value :: values =>
    (keyToken key :: .ofSymbol ":" :: spelling h value) :: spellingEntries h keys values
  | _, _ => []

end

/-! ## how a text starts -/

theorem ne_equals_of_isNameStart {c : Char} (h : isNameStart c = true) : c ≠ '=' := by
  rintro rfl
  revert h
  decide

/-- The text of an expression is not empty and does not start with an equals sign. -/
theorem exists_head_render (h : Heap) {e : Expr} (he : e.Formed) :
    ∃ c cs, (e.render h).toList = c :: cs ∧ c ≠ '=' := by
  have named : ∀ {n : String}, isName n.toList = true →
      ∃ c cs, n.toList = c :: cs ∧ c ≠ '=' := by
    intro n hn
    cases hcs : n.toList with
    | nil => rw [hcs] at hn; simp [isName] at hn
    | cons c cs =>
      rw [hcs] at hn
      exact ⟨c, cs, rfl, ne_equals_of_isNameStart (isName_cons.mp hn).1⟩
  have longer : ∀ {s : String} (t : String), (∃ c cs, s.toList = c :: cs ∧ c ≠ '=') →
      ∃ c cs, (s ++ t).toList = c :: cs ∧ c ≠ '=' := by
    rintro s t ⟨c, cs, hcs, hc⟩
    exact ⟨c, cs ++ t.toList, by rw [String.toList_append, hcs, List.cons_append], hc⟩
  have symbol : ∀ (c : Char) (t : String), c ≠ '=' →
      ∃ d cs, (String.singleton c ++ t).toList = d :: cs ∧ d ≠ '=' := by
    intro c t hc
    exact ⟨c, t.toList, by rw [String.toList_append, String.toList_singleton]; rfl, hc⟩
  induction he with
  | scope hn => rw [render]; exact named hn
  | member _ _ ih => rw [render]; exact longer _ (longer _ ih)
  | keyed _ _ ih => rw [render]; exact longer _ (longer _ (longer _ ih))
  | callScope hn => rw [render]; exact longer _ (longer _ (longer _ (named hn)))
  | callMember _ _ _ ih =>
    rw [render]; exact longer _ (longer _ (longer _ (longer _ (longer _ ih))))
  | callFunction _ _ ih => rw [render]; exact longer _ (longer _ (longer _ ih))
  | binary =>
    rw [render]
    exact longer _ (longer _ (longer _ (longer _ (longer _ (symbol '(' _ (by decide))))))
  | not => rw [render]; exact symbol '!' _ (by decide)
  | conditional =>
    rw [render]
    exact longer _ (longer _ (longer _ (longer _ (longer _ (symbol '(' _ (by decide))))))
  | assign => rw [render]; exact longer _ (longer _ (longer _ (symbol '(' _ (by decide))))
  | literal hv =>
    rw [render]
    cases hv with
    | null => exact named (n := "null") (by decide)
    | bool b =>
      cases b with
      | false => exact named (n := "false") (by decide)
      | true => exact named (n := "true") (by decide)
    | number hn =>
      obtain ⟨⟨c, cs, hcs, hc⟩, _⟩ := spellsNumber_literalText h hn
      exact ⟨c, cs, hcs, by rintro rfl; simp at hc⟩
  | str s =>
    rw [render]
    exact ⟨'"', _, by rw [Text.quoted, String.toList_ofList]; rfl, by decide⟩
  | array => rw [render]; exact longer _ (symbol '[' _ (by decide))
  | object => rw [render]; exact longer _ (symbol '\x7b' _ (by decide))

/-! ## lists -/

/-- Before a boundary, the text is scanned as the tokens. -/
def Spelled (s : String) (us : List Token) : Prop :=
  ∀ rest ts, Boundary rest → Lexes rest ts → Lexes (s.toList ++ rest) (us ++ ts)

/-- Texts with a symbol and a space between them. -/
theorem spelled_intercalate {separator mark : String} {c : Char}
    (hs : separator.toList = [c, ' ']) (hm : mark.toList = [c]) (hc : c ∈ Lexeme.plainSymbols)
    (hp : c ≠ '.' ∧ isNamePart c = false) (ps : List (String × List Token))
    (h : ∀ p ∈ ps, Spelled p.1 p.2) :
    Spelled (separator.intercalate (ps.map Prod.fst))
      ([Token.ofSymbol mark].intercalate (ps.map Prod.snd)) := by
  induction ps with
  | nil =>
    intro rest ts _ hl
    exact hl
  | cons p ps ih =>
    cases ps with
    | nil =>
      simp only [List.map_cons, List.map_nil, String.intercalate_singleton,
        List.intercalate_singleton]
      exact h p (by simp)
    | cons q ps =>
      intro rest ts hb hl
      have hrest := ih (fun p hp => h p (by simp [hp])) rest ts hb hl
      have hfirst := h p (by simp) _ _ (Boundary.cons hp.2 hp.1 _)
        (Lexes.plain hm hc hp.1 hrest.space)
      simp only [List.map_cons, String.intercalate_cons_cons, List.intercalate_cons_cons,
        String.toList_append, hs, List.append_assoc, List.cons_append, List.nil_append]
        at hfirst ⊢
      exact hfirst

theorem renderAll_eq_map (h : Heap) (es : List Expr) :
    renderAll h es = (es.map fun e => (e.render h, e.spelling h)).map Prod.fst := by
  induction es with
  | nil => rw [renderAll]; rfl
  | cons e es ih => rw [renderAll, ih]; rfl

theorem spellingAll_eq_map (h : Heap) (es : List Expr) :
    spellingAll h es = (es.map fun e => (e.render h, e.spelling h)).map Prod.snd := by
  induction es with
  | nil => rw [spellingAll]; rfl
  | cons e es ih => rw [spellingAll, ih]; rfl

theorem spelled_arguments (h : Heap) {es : List Expr}
    (hes : ∀ e ∈ es, Spelled (e.render h) (e.spelling h)) :
    Spelled (", ".intercalate (renderAll h es)) (commaSeparated (spellingAll h es)) := by
  rw [renderAll_eq_map, commaSeparated, spellingAll_eq_map]
  refine spelled_intercalate (c := ',') rfl rfl (by decide) (by decide) _ fun p hp => ?_
  obtain ⟨e, he, rfl⟩ := List.mem_map.mp hp
  exact hes e he

theorem spelled_key (key : String) : Spelled (keyText key) [keyToken key] := by
  intro rest ts hb hl
  rw [keyText, keyToken]
  split
  · next hn => exact .word hn hb hl
  · exact .str key hl

theorem spelled_entry (h : Heap) {key : String} {e : Expr}
    (he : Spelled (e.render h) (e.spelling h)) :
    Spelled (keyText key ++ ": " ++ e.render h) (keyToken key :: .ofSymbol ":" :: e.spelling h) := by
  intro rest ts hb hl
  have hcolon := Lexes.plain (s := ":") (c := ':') rfl (by decide) (by decide) (he rest ts hb hl).space
  have hkey := spelled_key key _ _ (Boundary.cons (by decide) (by decide) _) hcolon
  simpa using hkey

theorem renderEntries_eq_map (h : Heap) (keys : List String) (es : List Expr) :
    renderEntries h keys es = ((keys.zip es).map fun p =>
      (keyText p.1 ++ ": " ++ p.2.render h,
        keyToken p.1 :: Token.ofSymbol ":" :: p.2.spelling h)).map Prod.fst := by
  induction keys generalizing es with
  | nil => cases es <;> rw [renderEntries] <;> simp
  | cons key keys ih =>
    cases es with
    | nil => rw [renderEntries] <;> simp
    | cons e es => rw [renderEntries, ih]; rfl

theorem spellingEntries_eq_map (h : Heap) (keys : List String) (es : List Expr) :
    spellingEntries h keys es = ((keys.zip es).map fun p =>
      (keyText p.1 ++ ": " ++ p.2.render h,
        keyToken p.1 :: Token.ofSymbol ":" :: p.2.spelling h)).map Prod.snd := by
  induction keys generalizing es with
  | nil => cases es <;> rw [spellingEntries] <;> simp
  | cons key keys ih =>
    cases es with
    | nil => rw [spellingEntries] <;> simp
    | cons e es => rw [spellingEntries, ih]; rfl

theorem spelled_entries (h : Heap) (keys : List String) {es : List Expr}
    (hes : ∀ e ∈ es, Spelled (e.render h) (e.spelling h)) :
    Spelled (", ".intercalate (renderEntries h keys es))
      (commaSeparated (spellingEntries h keys es)) := by
  rw [renderEntries_eq_map, commaSeparated, spellingEntries_eq_map]
  refine spelled_intercalate (c := ',') rfl rfl (by decide) (by decide) _ fun p hp => ?_
  obtain ⟨⟨key, e⟩, he, rfl⟩ := List.mem_map.mp hp
  exact spelled_entry h (hes e (List.of_mem_zip he).2)

/-! ## expressions -/

theorem lexes_mark {s : String} {c : Char} (hs : s.toList = [c])
    (hc : c ∈ ['(', '[', '\x7b', ')', ']', '\x7d', '?', ':']) {rest : List Char} {ts : List Token}
    (h : Lexes rest ts) : Lexes (c :: rest) (Token.ofSymbol s :: ts) := by
  have all : ['(', '[', '\x7b', ')', ']', '\x7d', '?', ':'].all
      (fun c => decide (c ∈ Lexeme.plainSymbols ∧ c ≠ '.')) = true := by decide
  obtain ⟨hplain, hpoint⟩ := of_decide_eq_true (List.all_eq_true.mp all c hc)
  exact .plain hs hplain hpoint h

theorem boundary_mark {c : Char} (hc : c ∈ ['(', '[', ')', ']', '\x7d', ' ']) (rest : List Char) :
    Boundary (c :: rest) := by
  have all : ['(', '[', ')', ']', '\x7d', ' '].all
      (fun c => decide (isNamePart c = false ∧ c ≠ '.')) = true := by decide
  obtain ⟨hname, hpoint⟩ := of_decide_eq_true (List.all_eq_true.mp all c hc)
  exact .cons hname hpoint rest

/-- A text in brackets, before anything. -/
theorem Spelled.enclosed {s : String} {us : List Token} (h : Spelled s us) (opening closing : String)
    {o c : Char} (ho : opening.toList = [o]) (hc : closing.toList = [c])
    (hmarks : (o, c) ∈ [('(', ')'), ('[', ']'), ('\x7b', '\x7d')]) {rest : List Char}
    {ts : List Token} (hl : Lexes rest ts) :
    Lexes (o :: (s.toList ++ c :: rest))
      (Token.ofSymbol opening :: (us ++ Token.ofSymbol closing :: ts)) := by
  have all : [('(', ')'), ('[', ']'), ('\x7b', '\x7d')].all
      (fun p => decide (p.1 ∈ ['(', '[', '\x7b', ')', ']', '\x7d', '?', ':'] ∧
        p.2 ∈ ['(', '[', '\x7b', ')', ']', '\x7d', '?', ':'] ∧
        p.2 ∈ ['(', '[', ')', ']', '\x7d', ' '])) = true := by decide
  obtain ⟨hopen, hclose, hend⟩ := of_decide_eq_true (List.all_eq_true.mp all _ hmarks)
  exact lexes_mark ho hopen (h _ _ (boundary_mark hend rest) (lexes_mark hc hclose hl))

theorem lexes_member {name : String} (hn : isName name.toList = true) {rest : List Char}
    {ts : List Token} (hb : Boundary rest) (h : Lexes rest ts) :
    Boundary ('.' :: (name.toList ++ rest)) ∧
      Lexes ('.' :: (name.toList ++ rest)) (Token.ofSymbol "." :: Token.ofWord name :: ts) := by
  have hw := Lexes.word hn hb h
  cases hcs : name.toList with
  | nil => rw [hcs] at hn; simp [isName] at hn
  | cons c cs =>
    rw [hcs] at hn hw
    exact ⟨.point (isName_cons.mp hn).1 _, .point (isName_cons.mp hn).1 hw⟩

theorem spelled_literal (h : Heap) {v : Value} (hv : v.IsLiteral) :
    Spelled (literalText h v) [literalToken h v] := by
  intro rest ts hb hl
  cases hv with
  | null => exact Lexes.word (by decide : isName "null".toList = true) hb hl
  | bool b =>
    cases b with
    | false => exact Lexes.word (by decide : isName "false".toList = true) hb hl
    | true => exact Lexes.word (by decide : isName "true".toList = true) hb hl
  | @number n hn =>
    have := Lexes.number (spellsNumber_literalText h hn) hb hl
    cases n <;> exact this

/-- The text of an expression is scanned as its tokens. -/
theorem spelled_render (h : Heap) {e : Expr} (he : e.Formed) :
    Spelled (e.render h) (e.spelling h) := by
  induction he with
  | scope hn =>
    intro rest ts hb hl
    rw [render, spelling]
    exact .word hn hb hl
  | member _ hn ih =>
    intro rest ts hb hl
    obtain ⟨hb', hl'⟩ := lexes_member hn hb hl
    simpa [render, spelling] using ih _ _ hb' hl'
  | keyed _ _ ih ihk =>
    intro rest ts hb hl
    have hkey := ihk.enclosed "[" "]" (o := '[') (c := ']') rfl rfl (by decide) hl
    simpa [render, spelling] using ih _ _ (boundary_mark (c := '[') (by decide) _) hkey
  | callScope hn _ _ iha =>
    intro rest ts hb hl
    have hargs := (spelled_arguments h iha).enclosed "(" ")" (o := '(') (c := ')') rfl rfl
      (by decide) hl
    simpa [render, spelling] using Lexes.word hn (boundary_mark (c := '(') (by decide) _) hargs
  | callMember _ hn _ ih iha =>
    intro rest ts hb hl
    have hargs := (spelled_arguments h iha).enclosed "(" ")" (o := '(') (c := ')') rfl rfl
      (by decide) hl
    obtain ⟨hb', hl'⟩ := lexes_member hn (boundary_mark (c := '(') (by decide) _) hargs
    simpa [render, spelling] using ih _ _ hb' hl'
  | callFunction _ _ ih iha =>
    intro rest ts hb hl
    have hargs := (spelled_arguments h iha).enclosed "(" ")" (o := '(') (c := ')') rfl rfl
      (by decide) hl
    simpa [render, spelling] using ih _ _ (boundary_mark (c := '(') (by decide) _) hargs
  | @binary op _ _ _ _ ih ihr =>
    intro rest ts hb hl
    have hclose := lexes_mark (s := ")") (c := ')') rfl (by decide) hl
    have hright := ihr _ _ (boundary_mark (c := ')') (by decide) rest) hclose
    have hop := (Lexes.operator op hright).space
    have hleft := ih _ _ (boundary_mark (c := ' ') (by decide) _) hop
    simpa [render, spelling] using lexes_mark (s := "(") (c := '(') rfl (by decide) hleft
  | not he ih =>
    intro rest ts hb hl
    obtain ⟨c, cs, hcs, hc⟩ := exists_head_render h he
    have hoperand := ih rest ts hb hl
    have := Lexes.negation (by rw [hcs]; simpa using hc) hoperand
    simpa [render, spelling] using this
  | conditional _ _ _ ih ihy ihn =>
    intro rest ts hb hl
    have hclose := lexes_mark (s := ")") (c := ')') rfl (by decide) hl
    have hno := ihn _ _ (boundary_mark (c := ')') (by decide) rest) hclose
    have hcolon := (lexes_mark (s := ":") (c := ':') rfl (by decide) hno.space).space
    have hyes := ihy _ _ (boundary_mark (c := ' ') (by decide) _) hcolon
    have hmark := (lexes_mark (s := "?") (c := '?') rfl (by decide) hyes.space).space
    have hcondition := ih _ _ (boundary_mark (c := ' ') (by decide) _) hmark
    simpa [render, spelling] using lexes_mark (s := "(") (c := '(') rfl (by decide) hcondition
  | assign _ _ _ ih ihv =>
    intro rest ts hb hl
    have hclose := lexes_mark (s := ")") (c := ')') rfl (by decide) hl
    have hvalue := ihv _ _ (boundary_mark (c := ')') (by decide) rest) hclose
    have heq := (Lexes.spaced (show "=".toList = ['='] from rfl) (by decide) rfl hvalue).space
    have htarget := ih _ _ (boundary_mark (c := ' ') (by decide) _) heq
    simpa [render, spelling] using lexes_mark (s := "(") (c := '(') rfl (by decide) htarget
  | literal hv =>
    rw [render, spelling]
    exact spelled_literal h hv
  | str s =>
    intro rest ts _ hl
    rw [render, spelling]
    exact .str s hl
  | array _ ih =>
    intro rest ts hb hl
    have hitems := (spelled_arguments h ih).enclosed "[" "]" (o := '[') (c := ']') rfl rfl
      (by decide) hl
    simpa [render, spelling] using hitems
  | @object keys _ _ _ ih =>
    intro rest ts hb hl
    have hentries := (spelled_entries h keys ih).enclosed "\x7b" "\x7d" (o := '\x7b')
      (c := '\x7d') rfl rfl (by decide) hl
    simpa [render, spelling] using hentries

/-! ## programs -/

theorem lexes_filterArgs (h : Heap) {args : List Expr} (ha : ∀ a ∈ args, a.Formed)
    {rest : List Char} {ts : List Token} (hb : Boundary rest) (hl : Lexes rest ts) :
    Boundary ((String.join ((renderAll h args).map (":" ++ ·))).toList ++ rest) ∧
      Lexes ((String.join ((renderAll h args).map (":" ++ ·))).toList ++ rest)
        ((spellingAll h args).flatMap (Token.ofSymbol ":" :: ·) ++ ts) := by
  induction args with
  | nil => simpa [renderAll, spellingAll] using ⟨hb, hl⟩
  | cons a args ih =>
    obtain ⟨hb', hl'⟩ := ih fun a ha' => ha a (by simp [ha'])
    have harg := spelled_render h (ha a (by simp)) _ _ hb' hl'
    have hcolon := lexes_mark (s := ":") (c := ':') rfl (by decide) harg
    have hbound : Boundary (':' :: ((a.render h).toList ++
        ((String.join ((renderAll h args).map (":" ++ ·))).toList ++ rest))) :=
      .cons (by decide) (by decide) _
    constructor
    · simpa [renderAll] using hbound
    · simpa [renderAll, spellingAll] using hcolon

theorem spelled_statement (h : Heap) {e : Expr} (he : e.FormedStatement) :
    Spelled (e.render h) (e.spelling h) := by
  induction he with
  | plain he => exact spelled_render h he
  | filter _ hn ha ih =>
    intro rest ts hb hl
    obtain ⟨hb', hl'⟩ := lexes_filterArgs h ha hb hl
    have hname := Lexes.word hn hb' hl'
    have hbar := (Lexes.spaced (show "|".toList = ['|'] from rfl) (by decide) rfl hname).space
    simpa [render, spelling] using ih _ _ (boundary_mark (c := ' ') (by decide) _) hbar

/-- The text of a program is scanned as its tokens. -/
theorem lexes_program (h : Heap) {e : Expr} (he : e.FormedProgram) :
    Lexes (e.render h).toList (e.spelling h) := by
  have hspelled : Spelled (e.render h) (e.spelling h) := by
    cases he with
    | statement he => exact spelled_statement h he
    | chain _ hes =>
      rw [render, spelling, renderAll_eq_map, spellingAll_eq_map]
      refine spelled_intercalate (c := ';') rfl rfl (by decide) (by decide) _ fun p hp => ?_
      obtain ⟨e, he, rfl⟩ := List.mem_map.mp hp
      exact spelled_statement h (hes e he)
  simpa using hspelled [] [] .nil .done

end Expr

end TemplateExpr
