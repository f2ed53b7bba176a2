import TemplateExpr.Proofs.Grammar.Derivation

/-!
# What the functions of the grammar read

Each function reads a phrase of its kind, and what is left does not go on after that phrase.

* `sound_expression`   an expression is read up to a token that cannot extend it;
* `sound_filtered`     a pipeline likewise.
-/

namespace TemplateExpr.Grammar

/-! ## marks -/

theorem Stops.append {marks marks' : List String} {ts : List Token} (h : Stops marks ts)
    (h' : Stops marks' ts) : Stops (marks ++ marks') ts := by
  intro s hs
  rcases List.mem_append.mp hs with hs | hs
  · exact h s hs
  · exact h' s hs

theorem Stops.single {s : String} {ts : List Token} (h : after s ts = none) : Stops [s] ts := by
  intro s' hs'
  rw [List.mem_singleton.mp hs', h]

theorem operandMarks_of_tighter {p q : Precedence} (h : p.tighter? = some q) :
    operandMarks p ⊆ operandMarks q ++ levelMarks q := by
  cases p <;> simp only [Precedence.tighter?, Option.some.injEq, reduceCtorEq] at h <;>
    subst h <;> decide

theorem operandMarks_of_tightest {p : Precedence} (h : p.tighter? = none) :
    operandMarks p ⊆ accessMarks := by
  cases p <;> simp only [Precedence.tighter?, reduceCtorEq] at h
  decide

theorem stops_of_operator? {p : Precedence} {t : Token} (h : operator? p t = none)
    (ts : List Token) : Stops (levelMarks p) (t :: ts) := by
  intro s hs
  obtain ⟨op, hop, rfl⟩ := List.mem_map.mp hs
  rw [after, if_neg (List.find?_eq_none.mp h op hop)]

/-! ## the functions -/

section
variable {source : String}

mutual

theorem sound_expression {ts : List Token} {e : Expr} {rest : List Token}
    (h : (expression source ts).reading = some (e, rest)) :
    ∃ us, ts = us ++ rest ∧ Derives .expression us e ∧ Stops expressionMarks rest := by
  rw [reading_expression] at h
  obtain ⟨⟨target, r₁⟩, hc, h⟩ := Option.bind_eq_some_iff.mp h
  dsimp only at h
  obtain ⟨us, hus, hd, hstop⟩ := sound_conditional hc
  have := length_of_reading hc
  split at h
  · next hno =>
    simp only [Option.some.injEq, Prod.mk.injEq] at h
    obtain ⟨rfl, rfl⟩ := h
    exact ⟨us, hus, .value hd, hstop.append (.single hno)⟩
  · next r₂ ha =>
    have := length_of_after ha
    obtain ⟨t, ht, hs⟩ := after_eq_some ha
    split at h
    · next assignable =>
      obtain ⟨⟨v, r₃⟩, hv, he⟩ := Option.map_eq_some_iff.mp h
      obtain ⟨vs, hvs, hdv, hend⟩ := sound_expression hv
      simp only [Prod.mk.injEq] at he
      obtain ⟨rfl, rfl⟩ := he
      refine ⟨us ++ t :: vs, ?_, .assign hd assignable hs hdv, hend⟩
      rw [hus, ht, hvs]; simp
    · simp at h
termination_by ts.length * 32 + 17

theorem sound_conditional {ts : List Token} {e : Expr} {rest : List Token}
    (h : (conditional source ts).reading = some (e, rest)) :
    ∃ us, ts = us ++ rest ∧ Derives .conditional us e ∧ Stops conditionalMarks rest := by
  rw [reading_conditional] at h
  obtain ⟨⟨c, r₁⟩, hc, h⟩ := Option.bind_eq_some_iff.mp h
  dsimp only at h
  obtain ⟨us, hus, hd, hstop⟩ := sound_binary hc
  have := length_of_reading hc
  split at h
  · next hno =>
    simp only [Option.some.injEq, Prod.mk.injEq] at h
    obtain ⟨rfl, rfl⟩ := h
    exact ⟨us, hus, .settled hd, hstop.append (.single hno)⟩
  · next r₂ ha =>
    have := length_of_after ha
    obtain ⟨mark, hmark, hms⟩ := after_eq_some ha
    obtain ⟨⟨yes, r₃⟩, hy, h⟩ := Option.bind_eq_some_iff.mp h
    dsimp only at h
    obtain ⟨vs, hvs, hdy, _⟩ := sound_expression hy
    have := length_of_reading hy
    obtain ⟨r₄, hb, h⟩ := Option.bind_eq_some_iff.mp h
    have := length_of_after hb
    obtain ⟨colon, hcolon, hcs⟩ := after_eq_some hb
    obtain ⟨⟨no, r₅⟩, hn, he⟩ := Option.map_eq_some_iff.mp h
    obtain ⟨ws, hws, hdn, hend⟩ := sound_expression hn
    simp only [Prod.mk.injEq] at he
    obtain ⟨rfl, rfl⟩ := he
    refine ⟨us ++ mark :: (vs ++ colon :: ws), ?_, .choice hd hms hdy hcs hdn,
      hend.mono (List.subset_append_left _ _)⟩
    rw [hus, hmark, hvs]
    rw [hcolon, hws]; simp
termination_by ts.length * 32 + 16
decreasing_by
  · show ts.length * 32 + 2 * 5 + 5 < ts.length * 32 + 16
    omega
  · omega
  · omega

theorem sound_binary {p : Precedence} {ts : List Token} {e : Expr} {rest : List Token}
    (h : (binary source p ts).reading = some (e, rest)) :
    ∃ us, ts = us ++ rest ∧ Derives (.binary p) us e ∧
      Stops (operandMarks p ++ levelMarks p) rest := by
  rw [reading_binary] at h
  obtain ⟨⟨l, r₁⟩, hl, h⟩ := Option.bind_eq_some_iff.mp h
  dsimp only at h
  obtain ⟨us, hus, hd, hstop⟩ := sound_operand hl
  have := length_of_reading hl
  obtain ⟨vs, hvs, hdv, hend⟩ := sound_binaryRest h (.single hd) hstop
  exact ⟨us ++ vs, by rw [hus]; rw [hvs]; simp, hdv, hend⟩
termination_by ts.length * 32 + 2 * p.height + 5

theorem sound_operand {p : Precedence} {ts : List Token} {e : Expr} {rest : List Token}
    (h : (operand source p ts).reading = some (e, rest)) :
    ∃ us, ts = us ++ rest ∧ Derives (.operand p) us e ∧ Stops (operandMarks p) rest := by
  rw [reading_operand] at h
  cases hp : p.tighter? with
  | some q =>
    rw [hp] at h
    have := Precedence.height_tighter hp
    obtain ⟨us, hus, hd, hstop⟩ := sound_binary h
    exact ⟨us, hus, .tighter hp hd, hstop.mono (operandMarks_of_tighter hp)⟩
  | none =>
    rw [hp] at h
    obtain ⟨us, hus, hd, hstop⟩ := sound_unary h
    exact ⟨us, hus, .tightest hp hd, hstop.mono (operandMarks_of_tightest hp)⟩
termination_by ts.length * 32 + 2 * p.height + 4

theorem sound_binaryRest {p : Precedence} {left : Expr} {ts : List Token} {e : Expr}
    {rest : List Token} (h : (binaryRest source p left ts).reading = some (e, rest))
    {vs : List Token} (hl : Derives (.binary p) vs left) (hstops : Stops (operandMarks p) ts) :
    ∃ us, ts = us ++ rest ∧ Derives (.binary p) (vs ++ us) e ∧
      Stops (operandMarks p ++ levelMarks p) rest := by
  cases hts : ts with
  | nil =>
    rw [hts, reading_binaryRest_nil] at h
    simp only [Option.some.injEq, Prod.mk.injEq] at h
    obtain ⟨rfl, rfl⟩ := h
    exact ⟨[], rfl, by rwa [List.append_nil], .nil _⟩
  | cons t tail =>
    rw [hts] at h hstops
    rw [reading_binaryRest_cons] at h
    have : ts.length = tail.length + 1 := by rw [hts]; rfl
    have := p.height_le
    split at h
    · next hno =>
      simp only [Option.some.injEq, Prod.mk.injEq] at h
      obtain ⟨rfl, rfl⟩ := h
      exact ⟨[], rfl, by rwa [List.append_nil], hstops.append (stops_of_operator? hno tail)⟩
    · next op hop =>
      obtain ⟨hm, hs⟩ := mem_operators_of_operator? hop
      obtain ⟨⟨r, r₁⟩, hr, h⟩ := Option.bind_eq_some_iff.mp h
      dsimp only at h
      obtain ⟨us, hus, hd, hstop⟩ := sound_operand hr
      have := length_of_reading hr
      obtain ⟨ws, hws, hdw, hend⟩ := sound_binaryRest h (.operation hl hm hs hd) hstop
      refine ⟨t :: us ++ ws, ?_, ?_, hend⟩
      · rw [hus]; rw [hws]; simp
      · simpa using hdw
termination_by ts.length * 32

theorem sound_unary {ts : List Token} {e : Expr} {rest : List Token}
    (h : (unary source ts).reading = some (e, rest)) :
    ∃ us, ts = us ++ rest ∧ Derives .unary us e ∧ Stops accessMarks rest := by
  rw [reading_unary] at h
  split at h
  · next r ha =>
    have := length_of_after ha
    obtain ⟨t, ht, hs⟩ := after_eq_some ha
    obtain ⟨us, hus, hd, hstop⟩ := sound_unary h
    exact ⟨t :: us, by rw [ht, hus]; rfl, .plus hs hd, hstop⟩
  · split at h
    · next r ha =>
      have := length_of_after ha
      obtain ⟨t, ht, hs⟩ := after_eq_some ha
      obtain ⟨⟨e', r₁⟩, hu, he⟩ := Option.map_eq_some_iff.mp h
      obtain ⟨us, hus, hd, hstop⟩ := sound_unary hu
      simp only [Prod.mk.injEq] at he
      obtain ⟨rfl, rfl⟩ := he
      exact ⟨t :: us, by rw [ht, hus]; rfl, .minus hs hd, hstop⟩
    · split at h
      · next r ha =>
        have := length_of_after ha
        obtain ⟨t, ht, hs⟩ := after_eq_some ha
        obtain ⟨⟨e', r₁⟩, hu, he⟩ := Option.map_eq_some_iff.mp h
        obtain ⟨us, hus, hd, hstop⟩ := sound_unary hu
        simp only [Prod.mk.injEq] at he
        obtain ⟨rfl, rfl⟩ := he
        exact ⟨t :: us, by rw [ht, hus]; rfl, .not hs hd, hstop⟩
      · obtain ⟨b, us, hus, hd, hstop⟩ := sound_access h
        exact ⟨us, hus, .unsigned hd, hstop⟩
termination_by ts.length * 32 + 3

theorem sound_access {ts : List Token} {e : Expr} {rest : List Token}
    (h : (access source ts).reading = some (e, rest)) :
    ∃ b us, ts = us ++ rest ∧ Derives (.access b) us e ∧ Stops accessMarks rest := by
  rw [reading_access] at h
  obtain ⟨⟨start, r₁⟩, hp, h⟩ := Option.bind_eq_some_iff.mp h
  dsimp only at h
  obtain ⟨b, us, hus, hd, hb⟩ := sound_primary hp
  have := length_of_reading hp
  obtain ⟨b', vs, hvs, hdv, hstop⟩ := sound_accessRest h (.start hd) hb
  exact ⟨b', us ++ vs, by rw [hus, hvs]; simp, hdv, hstop⟩
termination_by ts.length * 32 + 2

theorem sound_accessRest {start : Expr} {ts : List Token} {e : Expr} {rest : List Token}
    (h : (accessRest source start ts).reading = some (e, rest)) {b : Bool} {vs : List Token}
    (hs : Derives (.access b) vs start) (hb : b = true → after "(" ts = none) :
    ∃ b' us, ts = us ++ rest ∧ Derives (.access b') (vs ++ us) e ∧ Stops accessMarks rest := by
  rw [reading_accessRest] at h
  split at h
  · next r₁ ha =>
    have := length_of_after ha
    obtain ⟨dot, hdot, hds⟩ := after_eq_some ha
    obtain ⟨⟨n, r₂⟩, hn, h⟩ := Option.bind_eq_some_iff.mp h
    dsimp only at h
    have := length_of_reading hn
    obtain ⟨t, ht, hname⟩ := reading_name_eq_some hn
    split at h
    · next hno =>
      obtain ⟨b', us, hus, hd, hstop⟩ :=
        sound_accessRest h (.member hs hds hname) (fun _ => hno)
      exact ⟨b', dot :: t :: us, by rw [hdot, ht, hus]; rfl, by simpa using hd, hstop⟩
    · next r₃ ho =>
      have := length_of_after ho
      obtain ⟨o, hopen, hos⟩ := after_eq_some ho
      obtain ⟨⟨args, r₄⟩, hargs, h⟩ := Option.bind_eq_some_iff.mp h
      dsimp only at h
      have := length_of_reading hargs
      obtain ⟨as, c, has, hda, hcs⟩ := sound_arguments hargs
      obtain ⟨b', us, hus, hd, hstop⟩ :=
        sound_accessRest h (.callMember hs hds hname hos hda hcs) (by simp)
      refine ⟨b', dot :: t :: o :: (as ++ c :: us), ?_, by simpa using hd, hstop⟩
      rw [hdot, ht, hopen, has, hus]; simp
  · next hdot =>
    split at h
    · next r₁ ha =>
      have := length_of_after ha
      obtain ⟨o, hopen, hos⟩ := after_eq_some ha
      obtain ⟨⟨key, r₂⟩, hk, h⟩ := Option.bind_eq_some_iff.mp h
      dsimp only at h
      have := length_of_reading hk
      obtain ⟨ks, hks, hdk, _⟩ := sound_expression hk
      obtain ⟨r₃, hc, h⟩ := Option.bind_eq_some_iff.mp h
      have := length_of_after hc
      obtain ⟨c, hclose, hcs⟩ := after_eq_some hc
      obtain ⟨b', us, hus, hd, hstop⟩ := sound_accessRest h (.keyed hs hos hdk hcs) (by simp)
      refine ⟨b', o :: (ks ++ c :: us), ?_, by simpa using hd, hstop⟩
      rw [hopen, hks, hclose, hus]; simp
    · next hbracket =>
      split at h
      · next r₁ ha =>
        have := length_of_after ha
        obtain ⟨o, hopen, hos⟩ := after_eq_some ha
        obtain ⟨⟨args, r₂⟩, hargs, h⟩ := Option.bind_eq_some_iff.mp h
        dsimp only at h
        have := length_of_reading hargs
        obtain ⟨as, c, has, hda, hcs⟩ := sound_arguments hargs
        -- the parenthesis was not taken by a name before it
        have hf : b = false := by
          cases b with
          | false => rfl
          | true => rw [hb rfl] at ha; simp at ha
        subst hf
        obtain ⟨b', us, hus, hd, hstop⟩ :=
          sound_accessRest h (.callFunction hs hos hda hcs) (by simp)
        refine ⟨b', o :: (as ++ c :: us), ?_, by simpa using hd, hstop⟩
        rw [hopen, has, hus]; simp
      · next hparen =>
        simp only [Option.some.injEq, Prod.mk.injEq] at h
        obtain ⟨rfl, rfl⟩ := h
        refine ⟨b, [], rfl, by rwa [List.append_nil], ?_⟩
        exact Stops.append (.single hdot) (.append (.single hbracket) (.single hparen))
termination_by ts.length * 32

theorem sound_primary {ts : List Token} {e : Expr} {rest : List Token}
    (h : (primary source ts).reading = some (e, rest)) :
    ∃ b us, ts = us ++ rest ∧ Derives (.primary b) us e ∧ (b = true → after "(" rest = none) := by
  rw [reading_primary] at h
  split at h
  · next r₁ ha =>
    have := length_of_after ha
    obtain ⟨o, hopen, hos⟩ := after_eq_some ha
    obtain ⟨⟨e', r₂⟩, he, h⟩ := Option.bind_eq_some_iff.mp h
    obtain ⟨us, hus, hd, _⟩ := sound_expression he
    obtain ⟨r₃, hc, h⟩ := Option.map_eq_some_iff.mp h
    obtain ⟨c, hclose, hcs⟩ := after_eq_some hc
    simp only [Prod.mk.injEq] at h
    obtain ⟨rfl, rfl⟩ := h
    refine ⟨false, o :: (us ++ [c]), ?_, .group hos hd hcs, by simp⟩
    rw [hopen, hus, hclose]; simp
  · split at h
    · next r₁ ha =>
      have := length_of_after ha
      obtain ⟨o, hopen, hos⟩ := after_eq_some ha
      obtain ⟨⟨es, r₂⟩, hes, h⟩ := Option.map_eq_some_iff.mp h
      obtain ⟨us, c, hus, hd, hcs⟩ := sound_arguments hes
      simp only [Prod.mk.injEq] at h
      obtain ⟨rfl, rfl⟩ := h
      refine ⟨false, o :: (us ++ [c]), ?_, .array hos hd hcs, by simp⟩
      rw [hopen, hus]; simp
    · split at h
      · next r₁ ha =>
        have := length_of_after ha
        obtain ⟨o, hopen, hos⟩ := after_eq_some ha
        obtain ⟨⟨ps, r₂⟩, hps, h⟩ := Option.map_eq_some_iff.mp h
        obtain ⟨us, c, hus, hd, hcs⟩ := sound_entries hps
        simp only [Prod.mk.injEq] at h
        obtain ⟨rfl, rfl⟩ := h
        refine ⟨false, o :: (us ++ [c]), ?_, .object hos hd hcs, by simp⟩
        rw [hopen, hus]; simp
      · cases hts : ts with
        | nil => rw [hts] at h; simp [atom] at h
        | cons t tail =>
          rw [hts] at h
          have : ts.length = tail.length + 1 := by rw [hts]; rfl
          simp only [atom] at h
          split at h
          · next v hv =>
            simp only [Option.some.injEq, Prod.mk.injEq] at h
            obtain ⟨rfl, rfl⟩ := h
            exact ⟨false, [t], rfl, derives_constant hv, by simp⟩
          · next hv =>
            split at h
            · next n hn =>
              simp only [Option.some.injEq, Prod.mk.injEq] at h
              obtain ⟨rfl, rfl⟩ := h
              exact ⟨false, [t], rfl, .number hn, by simp⟩
            · next s hs =>
              simp only [Option.some.injEq, Prod.mk.injEq] at h
              obtain ⟨rfl, rfl⟩ := h
              exact ⟨false, [t], rfl, .str hs, by simp⟩
            · simp at h
            · next hw =>
              have hr := not_reserved_of_constant? hw hv
              split at h
              · next hno =>
                simp only [Option.some.injEq, Prod.mk.injEq] at h
                obtain ⟨rfl, rfl⟩ := h
                exact ⟨true, [t], rfl, .scope hw hr, fun _ => hno⟩
              · next r₁ ha =>
                have := length_of_after ha
                obtain ⟨o, hopen, hos⟩ := after_eq_some ha
                obtain ⟨⟨args, r₂⟩, hargs, h⟩ := Option.map_eq_some_iff.mp h
                obtain ⟨us, c, hus, hd, hcs⟩ := sound_arguments hargs
                simp only [Prod.mk.injEq] at h
                obtain ⟨rfl, rfl⟩ := h
                refine ⟨false, t :: o :: (us ++ [c]), ?_, .callScope hw hr hos hd hcs, by simp⟩
                rw [hopen, hus]; simp
termination_by ts.length * 32 + 1

theorem sound_arguments {close : String} {ts : List Token} {es : List Expr} {rest : List Token}
    (h : (arguments source close ts).reading = some (es, rest)) :
    ∃ us c, ts = us ++ c :: rest ∧ Derives .arguments us es ∧ c.isSpelled close = true := by
  rw [reading_arguments] at h
  split at h
  · next r₁ ha =>
    obtain ⟨c, hc, hcs⟩ := after_eq_some ha
    simp only [Option.some.injEq, Prod.mk.injEq] at h
    obtain ⟨rfl, rfl⟩ := h
    exact ⟨[], c, hc, .noArguments, hcs⟩
  · obtain ⟨⟨es', r₁⟩, hes, h⟩ := Option.bind_eq_some_iff.mp h
    obtain ⟨us, hus, hd⟩ := sound_items hes
    obtain ⟨r₂, hc, h⟩ := Option.map_eq_some_iff.mp h
    obtain ⟨c, hclose, hcs⟩ := after_eq_some hc
    simp only [Prod.mk.injEq] at h
    obtain ⟨rfl, rfl⟩ := h
    exact ⟨us, c, by rw [hus, hclose], .someArguments hd, hcs⟩
termination_by ts.length * 32 + 19

theorem sound_items {ts : List Token} {es : List Expr} {rest : List Token}
    (h : (items source ts).reading = some (es, rest)) :
    ∃ us, ts = us ++ rest ∧ Derives .items us es := by
  rw [reading_items] at h
  obtain ⟨⟨e, r₁⟩, he, h⟩ := Option.bind_eq_some_iff.mp h
  dsimp only at h
  have := length_of_reading he
  obtain ⟨us, hus, hd, _⟩ := sound_expression he
  split at h
  · simp only [Option.some.injEq, Prod.mk.injEq] at h
    obtain ⟨rfl, rfl⟩ := h
    exact ⟨us, hus, .item hd⟩
  · next r₂ ha =>
    have := length_of_after ha
    obtain ⟨comma, hcomma, hcs⟩ := after_eq_some ha
    obtain ⟨⟨es', r₃⟩, hes, h⟩ := Option.map_eq_some_iff.mp h
    obtain ⟨vs, hvs, hds⟩ := sound_items hes
    simp only [Prod.mk.injEq] at h
    obtain ⟨rfl, rfl⟩ := h
    refine ⟨us ++ comma :: vs, ?_, .items hd hcs hds⟩
    rw [hus, hcomma, hvs]; simp
termination_by ts.length * 32 + 18

theorem sound_entries {ts : List Token} {ps : List (String × Expr)} {rest : List Token}
    (h : (entries source ts).reading = some (ps, rest)) :
    ∃ us c, ts = us ++ c :: rest ∧ Derives .entries us ps ∧ c.isSpelled "\x7d" = true := by
  rw [reading_entries] at h
  split at h
  · next r₁ ha =>
    obtain ⟨c, hc, hcs⟩ := after_eq_some ha
    simp only [Option.some.injEq, Prod.mk.injEq] at h
    obtain ⟨rfl, rfl⟩ := h
    exact ⟨[], c, hc, .noEntries, hcs⟩
  · obtain ⟨⟨ps', r₁⟩, hps, h⟩ := Option.bind_eq_some_iff.mp h
    obtain ⟨us, hus, hd⟩ := sound_pairs hps
    obtain ⟨r₂, hc, h⟩ := Option.map_eq_some_iff.mp h
    obtain ⟨c, hclose, hcs⟩ := after_eq_some hc
    simp only [Prod.mk.injEq] at h
    obtain ⟨rfl, rfl⟩ := h
    exact ⟨us, c, by rw [hus, hclose], .someEntries hd, hcs⟩
termination_by ts.length * 32 + 19

theorem sound_pairs {ts : List Token} {ps : List (String × Expr)} {rest : List Token}
    (h : (pairs source ts).reading = some (ps, rest)) :
    ∃ us, ts = us ++ rest ∧ Derives .pairs us ps := by
  rw [reading_pairs] at h
  cases hts : ts with
  | nil => rw [hts] at h; simp at h
  | cons t tail =>
    rw [hts] at h
    have : ts.length = tail.length + 1 := by rw [hts]; rfl
    obtain ⟨key, hkey, h⟩ := Option.bind_eq_some_iff.mp h
    obtain ⟨r₁, ha, h⟩ := Option.bind_eq_some_iff.mp h
    have := length_of_after ha
    obtain ⟨colon, hcolon, hcs⟩ := after_eq_some ha
    obtain ⟨⟨e, r₂⟩, he, h⟩ := Option.bind_eq_some_iff.mp h
    dsimp only at h
    have := length_of_reading he
    obtain ⟨us, hus, hd, _⟩ := sound_expression he
    split at h
    · simp only [Option.some.injEq, Prod.mk.injEq] at h
      obtain ⟨rfl, rfl⟩ := h
      exact ⟨t :: colon :: us, by rw [hcolon, hus]; rfl, .pair hkey hcs hd⟩
    · next r₃ hb =>
      have := length_of_after hb
      obtain ⟨comma, hcomma, hms⟩ := after_eq_some hb
      obtain ⟨⟨ps', r₄⟩, hps, h⟩ := Option.map_eq_some_iff.mp h
      obtain ⟨vs, hvs, hds⟩ := sound_pairs hps
      simp only [Prod.mk.injEq] at h
      obtain ⟨rfl, rfl⟩ := h
      refine ⟨t :: colon :: (us ++ comma :: vs), ?_, .pairs hkey hcs hd hms hds⟩
      rw [hcolon, hus, hcomma, hvs]; simp
termination_by ts.length * 32

end

theorem sound_filterArgs {ts : List Token} {es : List Expr} {rest : List Token}
    (h : (filterArgs source ts).reading = some (es, rest)) :
    ∃ us, ts = us ++ rest ∧ Derives .filterArgs us es ∧
      (es ≠ [] → Stops expressionMarks rest) ∧ after ":" rest = none := by
  rw [reading_filterArgs] at h
  split at h
  · next hno =>
    simp only [Option.some.injEq, Prod.mk.injEq] at h
    obtain ⟨rfl, rfl⟩ := h
    exact ⟨[], rfl, .noFilterArgs, by simp, hno⟩
  · next r₁ ha =>
    have := length_of_after ha
    obtain ⟨colon, hcolon, hcs⟩ := after_eq_some ha
    obtain ⟨⟨e, r₂⟩, he, h⟩ := Option.bind_eq_some_iff.mp h
    have := length_of_reading he
    obtain ⟨us, hus, hd, hstop⟩ := sound_expression he
    obtain ⟨⟨es', r₃⟩, hes, h⟩ := Option.map_eq_some_iff.mp h
    obtain ⟨vs, hvs, hds, hmore, hend⟩ := sound_filterArgs hes
    simp only [Prod.mk.injEq] at h
    obtain ⟨rfl, rfl⟩ := h
    refine ⟨colon :: (us ++ vs), ?_, .filterArg hcs hd hds, fun _ => ?_, hend⟩
    · rw [hcolon, hus, hvs]; simp
    · cases hds with
      | noFilterArgs => rwa [hvs] at hstop
      | filterArg => exact hmore (by simp)
termination_by ts.length

theorem sound_filterRest {input : Expr} {ts : List Token} {e : Expr} {rest : List Token}
    (h : (filterRest source input ts).reading = some (e, rest)) {vs : List Token}
    (hi : Derives .filtered vs input) (hts : PipelineStops input ts) :
    ∃ us, ts = us ++ rest ∧ Derives .filtered (vs ++ us) e ∧ PipelineStops e rest ∧
      after "|" rest = none := by
  rw [reading_filterRest] at h
  split at h
  · next hno =>
    simp only [Option.some.injEq, Prod.mk.injEq] at h
    obtain ⟨rfl, rfl⟩ := h
    exact ⟨[], rfl, by rwa [List.append_nil], hts, hno⟩
  · next r₁ ha =>
    have := length_of_after ha
    obtain ⟨bar, hbar, hbs⟩ := after_eq_some ha
    obtain ⟨⟨n, r₂⟩, hn, h⟩ := Option.bind_eq_some_iff.mp h
    dsimp only at h
    have := length_of_reading hn
    obtain ⟨t, ht, hname⟩ := reading_name_eq_some hn
    obtain ⟨⟨args, r₃⟩, hargs, h⟩ := Option.bind_eq_some_iff.mp h
    dsimp only at h
    have := length_of_reading hargs
    obtain ⟨as, has, hda, hstop⟩ := sound_filterArgs hargs
    obtain ⟨us, hus, hd, hend⟩ :=
      sound_filterRest h (.pipe hi hbs hname hda) ((pipelineStops_filter _ _ _ _).mpr hstop)
    refine ⟨bar :: t :: (as ++ us), ?_, by simpa using hd, hend⟩
    rw [hbar, ht, has, hus]; simp
termination_by ts.length

theorem sound_filtered {ts : List Token} {e : Expr} {rest : List Token}
    (h : (filtered source ts).reading = some (e, rest)) :
    ∃ us, ts = us ++ rest ∧ Derives .filtered us e ∧ PipelineStops e rest ∧
      after "|" rest = none := by
  rw [reading_filtered] at h
  obtain ⟨⟨input, r₁⟩, hi, h⟩ := Option.bind_eq_some_iff.mp h
  obtain ⟨us, hus, hd, hstop⟩ := sound_expression hi
  have hplain : PipelineStops input r₁ :=
    (pipelineStops_of_not_filter (unfiltered hd) r₁).mpr hstop
  obtain ⟨vs, hvs, hdv, hend⟩ := sound_filterRest h (.plain hd) hplain
  exact ⟨us ++ vs, by rw [hus, hvs]; simp, hdv, hend⟩

end

end TemplateExpr.Grammar
