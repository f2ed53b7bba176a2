import TemplateExpr.Proofs.Grammar.Completeness

/-!
# The places of tokens do not matter

Where the tokens stand in their source, and what that source is, decides about messages only.

* `Alike`                   lists of tokens that differ in their places only;
* `Portable`                tokens that are a phrase wherever they stand;
* `Alike.derives`           phrases with the same trees;
* `Alike.reading_filtered`  and so are read alike;
* `Alike.program`           whole programs are read alike.
-/

namespace TemplateExpr

/-- The token without its place. -/
def Token.unplaced (t : Token) : Token := { t with index := 0 }

namespace Grammar

/-- The tokens differ in their places only. -/
def Alike (ts us : List Token) : Prop := ts.map Token.unplaced = us.map Token.unplaced

section
variable {t u : Token} (h : t.unplaced = u.unplaced)
include h

theorem text_of_unplaced : t.text = u.text := by
  show t.unplaced.text = u.unplaced.text
  rw [h]

theorem content_of_unplaced : t.content = u.content := by
  show t.unplaced.content = u.unplaced.content
  rw [h]

theorem isSpelled_of_unplaced (s : String) : t.isSpelled s = u.isSpelled s := by
  rw [Token.isSpelled, Token.isSpelled, text_of_unplaced h, content_of_unplaced h]

theorem name?_of_unplaced : t.name? = u.name? := by
  rw [Token.name?, Token.name?, text_of_unplaced h, content_of_unplaced h]

theorem key?_of_unplaced : key? t = key? u := by
  rw [key?, key?, text_of_unplaced h, content_of_unplaced h]

theorem formed_of_unplaced (hu : u.Formed) : t.Formed := by
  rw [Token.Formed, text_of_unplaced h, content_of_unplaced h]
  exact hu

end

namespace Alike

theorem refl (ts : List Token) : Alike ts ts := rfl

theorem symm {ts us : List Token} (h : Alike ts us) : Alike us ts := Eq.symm h

theorem nil {us : List Token} (h : Alike us []) : us = [] := List.map_eq_nil_iff.mp h

theorem cons {t : Token} {ts us : List Token} (h : Alike us (t :: ts)) :
    ∃ u us', us = u :: us' ∧ u.unplaced = t.unplaced ∧ Alike us' ts := by
  obtain ⟨u, us', rfl, hu, hus⟩ := List.map_eq_cons_iff.mp h
  exact ⟨u, us', rfl, hu, hus⟩

theorem append {ts ts' us : List Token} (h : Alike us (ts ++ ts')) :
    ∃ vs vs', us = vs ++ vs' ∧ Alike vs ts ∧ Alike vs' ts' := by
  rw [Alike, List.map_append] at h
  obtain ⟨vs, vs', rfl, hv, hv'⟩ := List.map_eq_append_iff.mp h
  exact ⟨vs, vs', rfl, hv, hv'⟩

theorem single {t : Token} {us : List Token} (h : Alike us [t]) :
    ∃ u, us = [u] ∧ u.unplaced = t.unplaced := by
  obtain ⟨u, _, rfl, hu, h⟩ := h.cons
  exact ⟨u, by rw [h.nil], hu⟩

theorem parted {t : Token} {ts ts' us : List Token} (h : Alike us (ts ++ t :: ts')) :
    ∃ vs u vs', us = vs ++ u :: vs' ∧ Alike vs ts ∧ u.unplaced = t.unplaced ∧ Alike vs' ts' := by
  obtain ⟨vs, _, rfl, hv, h⟩ := h.append
  obtain ⟨u, vs', rfl, hu, hv'⟩ := h.cons
  exact ⟨vs, u, vs', rfl, hv, hu, hv'⟩

theorem bracketed {o c : Token} {ts us : List Token} (h : Alike us (o :: (ts ++ [c]))) :
    ∃ o' vs c', us = o' :: (vs ++ [c']) ∧ o'.unplaced = o.unplaced ∧ Alike vs ts ∧
      c'.unplaced = c.unplaced := by
  obtain ⟨o', _, rfl, ho, h⟩ := h.cons
  obtain ⟨vs, _, rfl, hv, h⟩ := h.append
  obtain ⟨c', rfl, hc⟩ := h.single
  exact ⟨o', vs, c', rfl, ho, hv, hc⟩

theorem formed {ts us : List Token} (h : Alike us ts) (hf : ∀ t ∈ ts, Token.Formed t) :
    ∀ u ∈ us, Token.Formed u := by
  intro u hu
  have : u.unplaced ∈ ts.map Token.unplaced := h ▸ List.mem_map_of_mem hu
  obtain ⟨t, ht, e⟩ := List.mem_map.mp this
  exact formed_of_unplaced e.symm (hf t ht)

theorem after {ts us : List Token} (h : Alike us ts) {s : String} (hs : after s ts = none) :
    after s us = none := by
  cases ts with
  | nil => rw [h.nil]; rfl
  | cons t ts =>
    obtain ⟨u, us', rfl, hu, _⟩ := h.cons
    rw [Grammar.after, isSpelled_of_unplaced hu]
    cases ht : t.isSpelled s with
    | true => rw [after_cons_self ht] at hs; simp at hs
    | false => rfl

theorem pipelineStops {ts us : List Token} (h : Alike us ts) {e : Expr}
    (hs : PipelineStops e ts) : PipelineStops e us := hs.imp fun _ _ hm => h.after hm

end Alike

/-! ## phrases at other places -/

/-- The tokens are a phrase wherever they stand. -/
def Portable (φ : Phrase) (ts : List Token) (tree : φ.Tree) : Prop :=
  ∀ us, Alike us ts → Derives φ us tree

namespace Portable

section
variable {ts us vs : List Token} {t o c : Token} {e : Expr}

/-! ### shapes -/

theorem token {φ : Phrase} {tree : φ.Tree} (h : ∀ u, u.unplaced = t.unplaced → Derives φ [u] tree) :
    Portable φ [t] tree := by
  intro ws hw
  obtain ⟨u, rfl, hu⟩ := hw.single
  exact h u hu

/-- A sign before a phrase. -/
theorem signed {φ : Phrase} {tree tree' : φ.Tree} {sign : String} (hs : t.isSpelled sign = true)
    (h : Portable φ ts tree)
    (hd : ∀ u us, u.isSpelled sign = true → Derives φ us tree → Derives φ (u :: us) tree') :
    Portable φ (t :: ts) tree' := by
  intro ws hw
  obtain ⟨t', ts', rfl, ht, hts⟩ := hw.cons
  exact hd t' ts' (isSpelled_of_unplaced ht _ ▸ hs) (h ts' hts)

/-- A mark between two phrases. -/
theorem between {φ ψ χ : Phrase} {l : φ.Tree} {r : ψ.Tree} {tree : χ.Tree} {mark : String}
    (hl : Portable φ ts l) (hs : t.isSpelled mark = true) (hr : Portable ψ us r)
    (hd : ∀ ts t us, Derives φ ts l → t.isSpelled mark = true → Derives ψ us r →
      Derives χ (ts ++ t :: us) tree) : Portable χ (ts ++ t :: us) tree := by
  intro ws hw
  obtain ⟨ts', t', us', rfl, hts, ht, hus⟩ := hw.parted
  exact hd ts' t' us' (hl ts' hts) (isSpelled_of_unplaced ht _ ▸ hs) (hr us' hus)

/-- A phrase in brackets. -/
theorem enclosed {φ χ : Phrase} {inner : φ.Tree} {tree : χ.Tree} {opening closing : String}
    (ho : o.isSpelled opening = true) (h : Portable φ ts inner) (hc : c.isSpelled closing = true)
    (hd : ∀ o ts c, o.isSpelled opening = true → Derives φ ts inner → c.isSpelled closing = true →
      Derives χ (o :: (ts ++ [c])) tree) : Portable χ (o :: (ts ++ [c])) tree := by
  intro ws hw
  obtain ⟨o', ts', c', rfl, hopen, hts, hclose⟩ := hw.bracketed
  exact hd o' ts' c' (isSpelled_of_unplaced hopen _ ▸ ho) (h ts' hts)
    (isSpelled_of_unplaced hclose _ ▸ hc)

/-- A phrase in brackets behind another one. -/
theorem followed {φ ψ χ : Phrase} {left : φ.Tree} {inner : ψ.Tree} {tree : χ.Tree}
    {opening closing : String} (h : Portable φ ts left) (ho : o.isSpelled opening = true)
    (hi : Portable ψ us inner) (hc : c.isSpelled closing = true)
    (hd : ∀ ts o us c, Derives φ ts left → o.isSpelled opening = true → Derives ψ us inner →
      c.isSpelled closing = true → Derives χ (ts ++ o :: (us ++ [c])) tree) :
    Portable χ (ts ++ o :: (us ++ [c])) tree := by
  intro ws hw
  obtain ⟨ts', _, rfl, hts, hw⟩ := hw.append
  obtain ⟨o', us', c', rfl, hopen, hus, hclose⟩ := hw.bracketed
  exact hd ts' o' us' c' (h ts' hts) (isSpelled_of_unplaced hopen _ ▸ ho) (hi us' hus)
    (isSpelled_of_unplaced hclose _ ▸ hc)

/-! ### productions of other shapes -/

theorem pipe {input : Expr} {n : String} {args : List Expr} {bar : Token}
    (h : Portable .filtered ts input) (hbar : bar.isSpelled "|" = true) (hn : t.name? = some n)
    (ha : Portable .filterArgs us args) :
    Portable .filtered (ts ++ bar :: t :: us) (.filter input n args) := by
  intro ws hw
  obtain ⟨ts', bar', _, rfl, hts, hb, hw⟩ := hw.parted
  obtain ⟨t', us', rfl, ht, hus⟩ := hw.cons
  exact .pipe (h _ hts) (isSpelled_of_unplaced hb _ ▸ hbar) (name?_of_unplaced ht ▸ hn) (ha _ hus)

theorem filterArg {es : List Expr} {colon : Token} (hs : colon.isSpelled ":" = true)
    (h : Portable .expression ts e) (hes : Portable .filterArgs us es) :
    Portable .filterArgs (colon :: (ts ++ us)) (e :: es) := by
  intro ws hw
  obtain ⟨colon', _, rfl, hcolon, hw⟩ := hw.cons
  obtain ⟨ts', us', rfl, hts, hus⟩ := hw.append
  exact .filterArg (isSpelled_of_unplaced hcolon _ ▸ hs) (h _ hts) (hes _ hus)

theorem choice {c y n : Expr} {mark colon : Token} (h : Portable (.binary .disjunction) ts c)
    (hm : mark.isSpelled "?" = true) (hy : Portable .expression us y)
    (hc : colon.isSpelled ":" = true) (hn : Portable .expression vs n) :
    Portable .conditional (ts ++ mark :: (us ++ colon :: vs)) (.conditional c y n) := by
  intro ws hw
  obtain ⟨ts', mark', _, rfl, hts, hmark, hw⟩ := hw.parted
  obtain ⟨us', colon', vs', rfl, hus, hcolon, hvs⟩ := hw.parted
  exact .choice (h _ hts) (isSpelled_of_unplaced hmark _ ▸ hm) (hy _ hus)
    (isSpelled_of_unplaced hcolon _ ▸ hc) (hn _ hvs)

theorem member {b : Bool} {n : String} {dot : Token} (h : Portable (.access b) ts e)
    (hd : dot.isSpelled "." = true) (hn : t.name? = some n) :
    Portable (.access true) (ts ++ [dot, t]) (.member e n) := by
  intro ws hw
  obtain ⟨ts', dot', _, rfl, hts, hdot, hw⟩ := hw.parted
  obtain ⟨t', rfl, ht⟩ := hw.single
  exact .member (h _ hts) (isSpelled_of_unplaced hdot _ ▸ hd) (name?_of_unplaced ht ▸ hn)

theorem callMember {b : Bool} {n : String} {args : List Expr} {dot : Token}
    (h : Portable (.access b) ts e) (hd : dot.isSpelled "." = true) (hn : t.name? = some n)
    (ho : o.isSpelled "(" = true) (ha : Portable .arguments us args)
    (hc : c.isSpelled ")" = true) :
    Portable (.access false) (ts ++ dot :: t :: o :: (us ++ [c])) (.callMember e n args) := by
  intro ws hw
  obtain ⟨ts', dot', _, rfl, hts, hdot, hw⟩ := hw.parted
  obtain ⟨t', _, rfl, ht, hw⟩ := hw.cons
  obtain ⟨o', us', c', rfl, hopen, hus, hclose⟩ := hw.bracketed
  exact .callMember (h _ hts) (isSpelled_of_unplaced hdot _ ▸ hd) (name?_of_unplaced ht ▸ hn)
    (isSpelled_of_unplaced hopen _ ▸ ho) (ha _ hus) (isSpelled_of_unplaced hclose _ ▸ hc)

theorem scope (hw : t.content = .word) (hr : t.text ∉ reserved) :
    Portable (.primary true) [t] (.scope t.text) := by
  intro ws h
  obtain ⟨t', rfl, ht⟩ := h.single
  rw [← text_of_unplaced ht]
  exact .scope (content_of_unplaced ht ▸ hw) (text_of_unplaced ht ▸ hr)

theorem callScope {args : List Expr} (hw : t.content = .word) (hr : t.text ∉ reserved)
    (ho : o.isSpelled "(" = true) (h : Portable .arguments ts args)
    (hc : c.isSpelled ")" = true) :
    Portable (.primary false) (t :: o :: (ts ++ [c])) (.callScope t.text args) := by
  intro ws hws
  obtain ⟨t', _, rfl, ht, hws⟩ := hws.cons
  obtain ⟨o', ts', c', rfl, hopen, hts, hclose⟩ := hws.bracketed
  rw [← text_of_unplaced ht]
  exact .callScope (content_of_unplaced ht ▸ hw) (text_of_unplaced ht ▸ hr)
    (isSpelled_of_unplaced hopen _ ▸ ho) (h _ hts) (isSpelled_of_unplaced hclose _ ▸ hc)

theorem pair {key : String} {colon : Token} (hk : key? t = some key)
    (hs : colon.isSpelled ":" = true) (h : Portable .expression ts e) :
    Portable .pairs (t :: colon :: ts) [(key, e)] := by
  intro ws hw
  obtain ⟨t', _, rfl, ht, hw⟩ := hw.cons
  obtain ⟨colon', ts', rfl, hcolon, hts⟩ := hw.cons
  exact .pair (key?_of_unplaced ht ▸ hk) (isSpelled_of_unplaced hcolon _ ▸ hs) (h _ hts)

theorem pairs {key : String} {ps : List (String × Expr)} {colon comma : Token}
    (hk : key? t = some key) (hs : colon.isSpelled ":" = true) (h : Portable .expression ts e)
    (hm : comma.isSpelled "," = true) (hps : Portable .pairs us ps) :
    Portable .pairs (t :: colon :: (ts ++ comma :: us)) ((key, e) :: ps) := by
  intro ws hw
  obtain ⟨t', _, rfl, ht, hw⟩ := hw.cons
  obtain ⟨colon', _, rfl, hcolon, hw⟩ := hw.cons
  obtain ⟨ts', comma', us', rfl, hts, hcomma, hus⟩ := hw.parted
  exact .pairs (key?_of_unplaced ht ▸ hk) (isSpelled_of_unplaced hcolon _ ▸ hs) (h _ hts)
    (isSpelled_of_unplaced hcomma _ ▸ hm) (hps _ hus)

end

end Portable

theorem portable {φ : Phrase} {ts : List Token} {tree : φ.Tree} (h : Derives φ ts tree) :
    Portable φ ts tree := by
  induction h with
  | noFilterArgs => intro us h; rw [h.nil]; exact .noFilterArgs
  | noArguments => intro us h; rw [h.nil]; exact .noArguments
  | noEntries => intro us h; rw [h.nil]; exact .noEntries
  | plain _ ih => exact fun us h => .plain (ih us h)
  | value _ ih => exact fun us h => .value (ih us h)
  | settled _ ih => exact fun us h => .settled (ih us h)
  | single _ ih => exact fun us h => .single (ih us h)
  | tighter hp _ ih => exact fun us h => .tighter hp (ih us h)
  | tightest hp _ ih => exact fun us h => .tightest hp (ih us h)
  | unsigned _ ih => exact fun us h => .unsigned (ih us h)
  | start _ ih => exact fun us h => .start (ih us h)
  | someArguments _ ih => exact fun us h => .someArguments (ih us h)
  | someEntries _ ih => exact fun us h => .someEntries (ih us h)
  | item _ ih => exact fun us h => .item (ih us h)
  | pipe _ hbar hn _ ih iha => exact .pipe ih hbar hn iha
  | filterArg hs _ _ ih ihs => exact .filterArg hs ih ihs
  | assign _ ha hs _ ih ihe => exact .between ih hs ihe fun _ _ _ ht hs he => .assign ht ha hs he
  | choice _ hm _ hc _ ih ihy ihn => exact .choice ih hm ihy hc ihn
  | operation _ hop hs _ ih ihr =>
    exact .between ih hs ihr fun _ _ _ hl hs hr => .operation hl hop hs hr
  | plus hs _ ih => exact .signed hs ih fun _ _ => .plus
  | minus hs _ ih => exact .signed hs ih fun _ _ => .minus
  | not hs _ ih => exact .signed hs ih fun _ _ => .not
  | member _ hd hn ih => exact .member ih hd hn
  | callMember _ hd hn ho _ hc ih iha => exact .callMember ih hd hn ho iha hc
  | keyed _ ho _ hc ih ihk => exact .followed ih ho ihk hc fun _ _ _ _ => .keyed
  | callFunction _ ho _ hc ih iha => exact .followed ih ho iha hc fun _ _ _ _ => .callFunction
  | group ho _ hc ih => exact .enclosed ho ih hc fun _ _ _ => .group
  | array ho _ hc ih => exact .enclosed ho ih hc fun _ _ _ => .array
  | object ho _ hc ih => exact .enclosed ho ih hc fun _ _ _ => .object
  | null hs =>
    exact .token fun u hu =>
      .null (by rwa [isSpelled_of_unplaced hu, isSpelled_of_unplaced hu])
  | true hs => exact .token fun u hu => .true (isSpelled_of_unplaced hu _ ▸ hs)
  | false hs => exact .token fun u hu => .false (isSpelled_of_unplaced hu _ ▸ hs)
  | number hn => exact .token fun u hu => .number (content_of_unplaced hu ▸ hn)
  | str hs => exact .token fun u hu => .str (content_of_unplaced hu ▸ hs)
  | scope hw hr => exact .scope hw hr
  | callScope hw hr ho _ hc ih => exact .callScope hw hr ho ih hc
  | items _ hs _ ih ihs => exact .between ih hs ihs fun _ _ _ => .items
  | pair hk hs _ ih => exact .pair hk hs ih
  | pairs hk hs _ hm _ ih ihs => exact .pairs hk hs ih hm ihs

namespace Alike

/-- Lists of tokens that differ in their places only are the same phrases. -/
theorem derives {φ : Phrase} {ts us : List Token} {tree : φ.Tree} (h : Alike us ts)
    (hd : Derives φ ts tree) : Derives φ us tree := portable hd us h

/-! ## programs -/

theorem reading_filtered {ts us : List Token} (h : Alike us ts)
    (hf : ∀ t ∈ ts, Token.Formed t) (source source' : String) {e : Expr} {rest : List Token}
    (hr : (filtered source ts).reading = some (e, rest)) :
    ∃ rest', (filtered source' us).reading = some (e, rest') ∧ Alike rest' rest := by
  obtain ⟨vs, rfl, hd, hstop, hbar⟩ := (reading_filtered_iff hf).mp hr
  obtain ⟨ws, rest', rfl, hw, hrest⟩ := h.append
  refine ⟨rest', (reading_filtered_iff (h.formed hf)).mpr ?_, hrest⟩
  exact ⟨ws, rfl, hw.derives hd, hrest.pipelineStops hstop, hrest.after hbar⟩

theorem startsWith_eq {ts us : List Token} (h : Alike us ts) (s : String) :
    startsWith s us = startsWith s ts := by
  cases ts with
  | nil => rw [h.nil]
  | cons t ts =>
    obtain ⟨u, us', rfl, hu, _⟩ := h.cons
    exact isSpelled_of_unplaced hu s

theorem skipSemicolons {ts us : List Token} (h : Alike us ts) :
    Alike (skipSemicolons us) (skipSemicolons ts) := by
  induction ts generalizing us with
  | nil => rw [h.nil]; exact .refl _
  | cons t ts ih =>
    obtain ⟨u, us', rfl, hu, hus⟩ := h.cons
    rw [Grammar.skipSemicolons, Grammar.skipSemicolons, List.dropWhile_cons, List.dropWhile_cons,
      isSpelled_of_unplaced hu]
    split
    · exact ih hus
    · exact h

/-- One direction of `statements`: what is read in one list is read in the other. -/
theorem statements_eq_some {ts us : List Token} (h : Alike us ts)
    (hf : ∀ t ∈ ts, Token.Formed t) (source source' : String) (separated : Bool)
    {es : List Expr} (hs : (statements source separated ts).toOption = some es) :
    (statements source' separated us).toOption = some es := by
  induction hn : ts.length using Nat.strongRecOn generalizing ts us separated es with
  | _ n ih =>
    cases ts with
    | nil =>
      rw [h.nil, toOption_statements_nil]
      rw [toOption_statements_nil] at hs
      exact hs
    | cons t tail =>
      obtain ⟨u, us', rfl, hu, hus⟩ := h.cons
      rw [toOption_statements] at hs ⊢
      have hcloser : startsWithCloser (u :: us') = startsWithCloser (t :: tail) := by
        rw [startsWithCloser, startsWithCloser, h.startsWith_eq, h.startsWith_eq, h.startsWith_eq]
      rw [hcloser]
      split at hs
      · simp at hs
      · next hopen =>
        rw [if_neg hopen]
        obtain ⟨⟨e, rest⟩, hr, hs⟩ := Option.bind_eq_some_iff.mp hs
        obtain ⟨rest', hr', hrest⟩ := h.reading_filtered hf source source' hr
        have hlen := length_of_reading hr
        have hskip : (Grammar.skipSemicolons rest).length ≤ rest.length :=
          Lexeme.length_dropWhile_le _ rest
        have hfr : ∀ t ∈ Grammar.skipSemicolons rest, Token.Formed t := by
          obtain ⟨vs, hvs, _⟩ := (reading_filtered_iff hf).mp hr
          intro t ht
          refine hf t ?_
          rw [hvs]
          exact List.mem_append_right _ (List.dropWhile_subset _ ht)
        rw [hr', Option.bind_some]
        dsimp only at hs ⊢
        rw [hrest.startsWith_eq]
        split at hs
        · simp at hs
        · next hfilter =>
          rw [if_neg hfilter]
          obtain ⟨es', hs', rfl⟩ := Option.map_eq_some_iff.mp hs
          rw [ih _ (by omega) hrest.skipSemicolons hfr _ hs' rfl, Option.map_some]

theorem program {ts us : List Token} (h : Alike us ts) (hf : ∀ t ∈ ts, Token.Formed t)
    (source source' : String) :
    (program source' us).toOption = (program source ts).toOption := by
  have hs := h.skipSemicolons
  have hfs : ∀ t ∈ Grammar.skipSemicolons ts, Token.Formed t :=
    fun t ht => hf t (List.dropWhile_subset _ ht)
  rw [toOption_program, toOption_program, h.startsWith_eq]
  congr 1
  refine Option.ext fun es => ⟨fun he => ?_, fun he => ?_⟩
  · exact hs.symm.statements_eq_some (hs.formed hfs) source' source _ he
  · exact hs.statements_eq_some hfs source source' _ he

end Alike

end Grammar

end TemplateExpr
