import TemplateExpr.Proofs.Grammar.Places
import TemplateExpr.Proofs.Token.Spacing

/-!
# Where reading ends

Reading the tokens of a source ends after boundedly deep calls. What was read stands between two
places in the tokens, and an error is located where reading stopped.

* `Token.index_lt_of_scan`   tokens stand in their source;
* `Call.isPhrase`            the functions that read a phrase, which has at least one token;
* `Located`                  the location of an error is that of a place;
* `walks_end`                all functions end, from every place.
-/

namespace TemplateExpr

/-- A token begins in its source. -/
theorem Token.index_lt_of_scan {source : String} {ts : List Token}
    (h : Token.scan source = .ok ts) {t : Token} (ht : t ∈ ts) : t.index < source.length := by
  obtain ⟨hne, htext⟩ := (laid_of_scan h).text_eq [] rfl t ht
  have hpos : 0 < t.text.length := by
    rw [Nat.pos_iff_ne_zero, Ne, String.length_eq_zero_iff]
    exact hne
  have hlength := congrArg List.length htext
  rw [List.nil_append, List.length_take, List.length_drop, String.length_toList,
    String.length_toList] at hlength
  omega

namespace Grammar

/-- The functions that read a phrase. The others may find nothing to read. -/
def Call.isPhrase : Call → Bool
  | program | statements _ | semicolons => false
  | filterRest _ | filterArgs | binaryRest .. | accessRest _ => false
  | _ => true

/-- The error is about this source. It is located at the end if all tokens are behind the place, and
else at the column of the token there. -/
structure Located (source : String) (ts : List Token) (place : Nat) (e : GrammarError) : Prop where
  source_eq : e.source = source
  atEnd_iff : e.location = .atEnd ↔ place = ts.length
  column : place < ts.length →
    ∃ t, ts[place]? = some t ∧ e.location = .column (t.index + 1)

theorem located_of_fault {source : String} {ts : List Token} {place : Nat}
    (hplace : place ≤ ts.length) (fault : GrammarFault) :
    Located source ts place ⟨fault, .ofTokens (ts.drop place), source⟩ := by
  obtain ⟨hpeek, hdrop⟩ | ⟨t, hpeek, hdrop, hlt⟩ := Walk.place_cases ts place
  · have hend : ts.length ≤ place := List.getElem?_eq_none_iff.mp hpeek
    rw [hdrop]
    exact ⟨rfl, ⟨fun _ => Nat.le_antisymm hplace hend, fun _ => rfl⟩, fun hlt => by omega⟩
  · rw [hdrop]
    refine ⟨rfl, ⟨fun hlocation => ?_, fun heq => by omega⟩, fun _ => ⟨t, hpeek, rfl⟩⟩
    cases hlocation

/-- The column of an error is that of a token, and so it is one of the source. -/
theorem Located.column_le {source : String} {ts : List Token} {place : Nat} {e : GrammarError}
    (he : Located source ts place e) (hplace : place ≤ ts.length)
    (hscan : Token.scan source = .ok ts) {n : Nat} (hn : e.location = .column n) :
    1 ≤ n ∧ n ≤ source.length := by
  have hne : place ≠ ts.length := by
    intro heq
    rw [he.atEnd_iff.mpr heq] at hn
    cases hn
  obtain ⟨t, hpeek, hlocation⟩ := he.column (by omega)
  obtain rfl : t.index + 1 = n := Location.column.inj (hlocation.symm.trans hn)
  have hindex := Token.index_lt_of_scan hscan (List.mem_of_getElem? hpeek)
  omega

/-- How a walk that agrees ends, and where. -/
theorem Agrees.ends {α : Type} {source : String} {ts : List Token}
    {x : Except GrammarError (α × List Token)} {r : EStateM.Result Stop Nat α}
    (h : Agrees source ts x r) : ∃ place, place ≤ ts.length ∧
      ((∃ a, r = .ok a place ∧ x = .ok (a, ts.drop place)) ∨
        ∃ e, r = .error (.fault e) place ∧ x = .error e ∧ Located source ts place e) := by
  cases h with
  | @read a place hplace => exact ⟨place, hplace, .inl ⟨a, rfl, rfl⟩⟩
  | @fault fault place hplace =>
    exact ⟨place, hplace, .inr ⟨_, rfl, rfl, located_of_fault hplace fault⟩⟩

/-- A phrase has at least one token. -/
theorem Call.lt_of_answer {source : String} {ts : List Token} {c : Call} (hc : c.isPhrase = true)
    {a : c.Result} {i place : Nat} (h : c.answer source (ts.drop i) = .ok (a, ts.drop place)) :
    i < place := by
  have hshorter : ∀ {α : Type} {x : Outcome α (ts.drop i).length} {a : α},
      x.plain = .ok (a, ts.drop place) → i < place := by
    intro α x a hx
    obtain ⟨shorter, _⟩ := plain_eq_ok hx
    rw [List.length_drop, List.length_drop] at shorter
    omega
  cases c with
  | program | statements _ | semicolons | filterRest _ | filterArgs | binaryRest _ _
  | accessRest _ => cases hc
  | _ => exact hshorter h

section
variable {source : String} {ts : List Token} (hscan : Token.scan source = .ok ts)
include hscan

theorem parse_of_answer {e : Expr} {rest : List Token}
    (h : Call.program.answer source ts = .ok (e, rest)) :
    Expr.parse source = .ok e ∧ rest = [] := by
  rw [Expr.parse, hscan]
  dsimp only [Call.answer] at h ⊢
  cases hprogram : program source ts with
  | error e' =>
    rw [hprogram] at h
    cases h
  | ok e' =>
    rw [hprogram] at h
    cases h
    exact ⟨rfl, rfl⟩

theorem parse_of_answer_error {e : GrammarError}
    (h : Call.program.answer source ts = .error e) : Expr.parse source = .error (.grammar e) := by
  rw [Expr.parse, hscan]
  dsimp only [Call.answer] at h ⊢
  cases hprogram : program source ts with
  | error e' =>
    rw [hprogram] at h
    cases h
    rfl
  | ok e' =>
    rw [hprogram] at h
    cases h

end

/-- **Reading ends, and where.** With a budget of 32 calls to a token, every function of the grammar
ends from every place in the tokens. It answers what is read off the list of the tokens ahead, and
stops in front of those that are left. A phrase has at least one token. An error has the source and
the location of the place where reading stopped. If these are the tokens of the source, its column
is one of the source, and reading the program from the first token on is how the source is
parsed. -/
theorem walks_end (source : String) (ts : List Token) {budget : Nat}
    (hbudget : 32 * (ts.length + 1) ≤ budget) :
    (∀ c i, i ≤ ts.length → ∃ place, place ≤ ts.length ∧
      ((∃ a, Walk.run source ts budget c i = .ok a place ∧
          c.answer source (ts.drop i) = .ok (a, ts.drop place) ∧
          (c.isPhrase = true → i < place)) ∨
        ∃ e, Walk.run source ts budget c i = .error (.fault e) place ∧
          c.answer source (ts.drop i) = .error e ∧ Located source ts place e ∧
          (Token.scan source = .ok ts →
            ∀ n, e.location = .column n → 1 ≤ n ∧ n ≤ source.length))) ∧
    (Token.scan source = .ok ts →
      (∃ e, Walk.run source ts budget .program 0 = .ok e ts.length ∧
          Expr.parse source = .ok e) ∨
        ∃ e place, Walk.run source ts budget .program 0 = .error (.fault e) place ∧
          Expr.parse source = .error (.grammar e)) := by
  refine ⟨fun c i hi => ?_, fun hscan => ?_⟩
  · obtain ⟨place, hplace, hend⟩ := (agrees_run source hbudget c hi).ends
    refine ⟨place, hplace, hend.imp ?_ ?_⟩
    · rintro ⟨a, hrun, hanswer⟩
      exact ⟨a, hrun, hanswer, fun hc => Call.lt_of_answer hc hanswer⟩
    · rintro ⟨e, hrun, hanswer, hlocated⟩
      exact ⟨e, hrun, hanswer, hlocated, fun hscan n hn => hlocated.column_le hplace hscan hn⟩
  · obtain ⟨place, hplace, hend⟩ :=
      (agrees_run source hbudget .program (Nat.zero_le _)).ends
    rw [List.drop_zero] at hend
    rcases hend with ⟨e, hrun, hanswer⟩ | ⟨e, hrun, hanswer, _⟩
    · obtain ⟨hparse, hend⟩ := parse_of_answer hscan hanswer
      have hle : ts.length ≤ place := List.drop_eq_nil_iff.mp hend
      rw [Nat.le_antisymm hplace hle] at hrun
      exact .inl ⟨e, hrun, hparse⟩
    · exact .inr ⟨e, place, hrun, parse_of_answer_error hscan hanswer⟩

/-- The tokens of `f(a b)`. -/
def unseparatedTokens : List Token :=
  [⟨0, "f", .word⟩, ⟨1, "(", .symbol⟩, ⟨2, "a", .word⟩, ⟨4, "b", .word⟩, ⟨5, ")", .symbol⟩]

/-- Behind the first argument there is no comma. Reading stops at the second one, with three tokens
behind it. -/
theorem walks_end_unseparated :
    Token.scan "f(a b)" = .ok unseparatedTokens ∧ 32 * (unseparatedTokens.length + 1) ≤ 192 ∧
      ∃ e, Walk.run "f(a b)" unseparatedTokens 192 .program 0 = .error (.fault e) 3 ∧
        Located "f(a b)" unseparatedTokens 3 e ∧ e.location = .column 5 ∧
        Expr.parse "f(a b)" = .error (.grammar e) := by
  have scanned : Token.scan "f(a b)" = .ok unseparatedTokens := by cbv
  have hbudget : 32 * (unseparatedTokens.length + 1) ≤ 192 := by decide
  have hrun : Walk.run "f(a b)" unseparatedTokens 192 .program 0 =
      .error (.fault ⟨.missing ")", .column 5, "f(a b)"⟩) 3 := rfl
  obtain ⟨hends, hprogram⟩ := walks_end "f(a b)" unseparatedTokens hbudget
  refine ⟨scanned, hbudget, _, hrun, ?_, rfl, ?_⟩
  · obtain ⟨place, _, ⟨a, hok, _⟩ | ⟨e, herror, _, hlocated, _⟩⟩ := hends .program 0 (Nat.zero_le _)
    · cases hrun.symm.trans hok
    · cases hrun.symm.trans herror
      exact hlocated
  · rcases hprogram scanned with ⟨e, hok, _⟩ | ⟨e, place, herror, hparse⟩
    · cases hrun.symm.trans hok
    · cases hrun.symm.trans herror
      exact hparse

end Grammar

end TemplateExpr
