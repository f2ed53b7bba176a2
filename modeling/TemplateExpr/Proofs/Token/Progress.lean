import TemplateExpr.Proofs.Token.Extent

/-!
# The cursor moves forward

However often the next token is asked for, and whatever was answered before, the cursor stays in
the source and never goes back.

* `Lexeme.numberOf?_of_parts`   every text that is scanned as a number spells one;
* `Lexeme.fault_bounds`         a fault lies in the text, and no more than the text is read;
* `Cursor.Inside`               the cursor stands in a source;
* `Cursor.Advances`             what one step may do;
* `Cursor.after`                the cursor after some steps;
* `Cursor.after_safe`           the steps together.
-/

namespace TemplateExpr

/-! ## numbers are understood -/

theorem Decimal.isSome_readExponent? {sign ds : List Char} {d : Char}
    (hs : sign = [] ∨ sign = ['+'] ∨ sign = ['-']) (hds : ∀ c ∈ d :: ds, c.isDigit = true) :
    (readExponent? (sign ++ d :: ds)).isSome = true := by
  have hall : (d :: ds).all Char.isDigit = true := List.all_eq_true.mpr hds
  have hd : d.isDigit = true := hds d List.mem_cons_self
  have hplus : d ≠ '+' := by
    rintro rfl
    exact absurd hd (by decide)
  have hminus : d ≠ '-' := by
    rintro rfl
    exact absurd hd (by decide)
  rcases hs with rfl | rfl | rfl
  · simp [readExponent?, hplus, hminus, hall]
  · simp [readExponent?, hall]
  · simp [readExponent?, hall]

theorem Decimal.isSome_marked {mark d : Char} {sign ds : List Char} {f : Int → Decimal}
    (hmark : mark = 'e' ∨ mark = 'E') (hs : sign = [] ∨ sign = ['+'] ∨ sign = ['-'])
    (hds : ∀ c ∈ d :: ds, c.isDigit = true) :
    (if mark = 'e' ∨ mark = 'E' then (readExponent? (sign ++ d :: ds)).map f
      else none).isSome = true := by
  rw [if_pos hmark, Option.isSome_map]
  exact isSome_readExponent? hs hds

namespace Lexeme

variable {whole fraction exponent : List Char}

theorem head_exponent (he : IsExponent exponent) :
    ∀ c ∈ exponent.head?, c.isDigit = false ∧ c ≠ '.' ∧ (c = 'e' ∨ c = 'E') := by
  intro c hc
  rcases he with rfl | ⟨mark, sign, d, ds, rfl, hmark, _⟩
  · simp at hc
  · obtain rfl : mark = c := by simpa using hc
    refine ⟨?_, ?_, hmark⟩ <;> rcases hmark with rfl | rfl <;> decide

/-- The digits of a number and their fraction are read as a decimal, with the exponent if there is
one. -/
theorem isSome_read? (hw : ∀ c ∈ whole, c.isDigit = true) (hf : IsFraction fraction)
    (he : IsExponent exponent) (hne : whole ≠ [] ∨ fraction ≠ []) :
    (Decimal.read? (whole ++ (fraction ++ exponent))).isSome = true := by
  have hexp := head_exponent he
  have hfrac : ∀ c ∈ (fraction ++ exponent).head?, c.isDigit = false := by
    rcases hf with rfl | ⟨d, ds, rfl, _⟩
    · exact fun c hc => (hexp c hc).1
    · intro c hc
      obtain rfl : '.' = c := by simpa using hc
      rfl
  obtain ⟨htake, hdrop⟩ := takeWhile_append_boundary hw hfrac
  -- what is left behind the digits is empty or an exponent that can be read
  rcases hf with rfl | ⟨d, ds, rfl, hds⟩
  · have hwhole : whole.isEmpty = false := by simpa using hne
    rw [List.nil_append] at htake hdrop ⊢
    simp only [Decimal.read?, htake, hdrop]
    split
    · exact absurd rfl (hexp '.' rfl).2.1
    · rw [if_neg (by simp [hwhole])]
      rcases he with rfl | ⟨mark, sign, e, es, rfl, hmark, hsign, hes⟩
      · rfl
      · exact Decimal.isSome_marked hmark hsign hes
  · obtain ⟨htake', hdrop'⟩ := takeWhile_append_boundary hds fun c hc => (hexp c hc).1
    rw [List.cons_append] at htake hdrop ⊢
    simp only [Decimal.read?, htake, hdrop, htake', hdrop']
    rw [if_neg (by simp)]
    rcases he with rfl | ⟨mark, sign, e, es, rfl, hmark, hsign, hes⟩
    · rfl
    · exact Decimal.isSome_marked hmark hsign hes

/-- **The parts of a number spell one.** -/
theorem numberOf?_of_parts (hw : ∀ c ∈ whole, c.isDigit = true) (hf : IsFraction fraction)
    (he : IsExponent exponent) (hne : whole ≠ [] ∨ fraction ≠ []) :
    (numberOf? (whole ++ fraction ++ exponent)).isSome = true := by
  have hread := isSome_read? hw hf he hne
  rw [← List.append_assoc] at hread
  have hfloat : ((readFloat? (whole ++ fraction ++ exponent)).map Number.float).isSome = true := by
    obtain ⟨c, cs, hcs, hc⟩ : ∃ c cs, whole ++ fraction ++ exponent = c :: cs ∧
        (c.isDigit = true ∨ c = '.') := by
      cases whole with
      | cons c whole => exact ⟨c, _, rfl, .inl (hw c List.mem_cons_self)⟩
      | nil =>
        rcases hf with rfl | ⟨d, ds, rfl, _⟩
        · simp at hne
        · exact ⟨'.', _, rfl, .inr rfl⟩
    rw [hcs] at hread ⊢
    rw [readFloat?_of_digit hc, Option.isSome_map, Option.isSome_map, hread]
  unfold numberOf?
  split
  · split
    · rfl
    · exact hfloat
  · exact hfloat

/-- A text that starts a number has digits before its exponent. -/
theorem mantissa_of_startsNumber {c : Char} {cs rest : List Char}
    (start : startsNumber c cs = true) (he : IsExponent exponent)
    (hcs : c :: cs = whole ++ (fraction ++ (exponent ++ rest)))
    (hr : EndsNumber fraction exponent rest) : whole ≠ [] ∨ fraction ≠ [] := by
  by_contra hnone
  rw [not_or, not_not, not_not] at hnone
  obtain ⟨rfl, rfl⟩ := hnone
  rw [startsNumber, Bool.or_eq_true, Bool.and_eq_true, beq_iff_eq] at start
  rcases he with rfl | ⟨mark, sign, d, ds, rfl, hmark, _⟩
  · obtain rfl : c :: cs = rest := hcs
    rcases start with hdigit | ⟨rfl, hnext⟩
    · rw [hr.digit c rfl] at hdigit
      cases hdigit
    · obtain ⟨d, hd, hdigit⟩ : ∃ d, cs.head? = some d ∧ d.isDigit = true := by
        simpa [Option.any_eq_true] using hnext
      rw [hr.point rfl rfl rfl d hd] at hdigit
      cases hdigit
  · obtain rfl : c = mark := (List.cons.inj hcs).1
    rcases start with hdigit | ⟨rfl, _⟩
    · rcases hmark with rfl | rfl <;> cases hdigit
    · rcases hmark with hmark | hmark <;> cases hmark

/-! ## faults -/

end Lexeme

theorem Quotation.cons_eq_badEscape {c : Char} {size offset : Nat} {q : Quotation}
    {digits : List Char} (h : cons c size q = badEscape digits offset) :
    ∃ inner, q = badEscape digits inner ∧ offset = size + inner := by
  cases q with
  | closed content n => simp [cons] at h
  | badEscape digits' inner =>
    obtain ⟨rfl, rfl⟩ : digits' = digits ∧ size + inner = offset := by simpa [cons] using h
    exact ⟨inner, rfl, rfl⟩
  | unclosed => simp [cons] at h

/-- The backslash and the `u` of a bad escape stand in the text. -/
theorem Quotation.offset_le_length {quote : Char} {cs digits : List Char} {offset : Nat}
    (h : scan quote cs = badEscape digits offset) : offset + 2 ≤ cs.length := by
  fun_induction scan quote cs generalizing digits offset with
  | case1 => cases h
  | case2 => cases h
  | case3 => cases h
  | case4 tail decoded hd _ ih =>
    obtain ⟨inner, hinner, rfl⟩ := cons_eq_badEscape h
    have hfour := length_of_decodeHex? hd
    have hlength := ih hinner
    rw [List.length_take] at hfour
    rw [List.length_drop] at hlength
    rw [List.length_cons, List.length_cons]
    omega
  | case5 =>
    cases h
    rw [List.length_cons, List.length_cons]
    omega
  | case6 e tail _ _ ih =>
    obtain ⟨inner, hinner, rfl⟩ := cons_eq_badEscape h
    have hlength := ih hinner
    rw [List.length_cons, List.length_cons]
    omega
  | case7 c rest _ _ ih =>
    obtain ⟨inner, hinner, rfl⟩ := cons_eq_badEscape h
    have hlength := ih hinner
    rw [List.length_cons]
    omega

namespace Lexeme

/-- The place of a fault is in a text of this length, no more than the text is read, and the fault
is not that a number was not understood. -/
structure Bounded (length : Nat) (fault : LexFault) (offset size : Nat) : Prop where
  offset_lt : offset < length
  size_le : size ≤ length
  understood : ∀ text, fault ≠ .invalidNumber text

theorem scanNumber_bounds {c : Char} {cs : List Char} {f : LexFault} {offset size : Nat}
    (start : startsNumber c cs = true) (h : scanNumber (c :: cs) = .fault f offset size) :
    Bounded (c :: cs).length f offset size := by
  obtain ⟨whole, fraction, exponent, rest, hcs, hw, hf, he, hr⟩ |
    ⟨mantissa, mark, sign, rest, hcs, hfault⟩ := scanNumber_cases (c :: cs)
  · have hsome := numberOf?_of_parts hw hf he (mantissa_of_startsNumber start he hcs hr)
    obtain ⟨n, hn⟩ := Option.isSome_iff_exists.mp hsome
    rw [hcs, scanNumber_append hw hf he hr, numberToken_of_numberOf? hn] at h
    cases h
  · rw [hfault] at h
    cases h
    rw [hcs, List.length_append, List.length_cons, List.length_append]
    exact ⟨by omega, by omega, fun text htext => by cases htext⟩

theorem scanQuotation_bounds {quote : Char} {cs : List Char} {f : LexFault} {offset size : Nat}
    (h : scanQuotation quote cs = .fault f offset size) :
    Bounded (quote :: cs).length f offset size := by
  unfold scanQuotation at h
  rw [List.length_cons]
  split at h
  · cases h
  · next digits inner hscan =>
    have hlength := Quotation.offset_le_length hscan
    cases h
    exact ⟨by omega, by omega, fun text htext => by cases htext⟩
  · cases h
    exact ⟨by omega, by omega, fun text htext => by cases htext⟩

theorem fault_bounds {c : Char} {cs : List Char} {f : LexFault} {offset size : Nat}
    (h : scan c cs = .fault f offset size) : Bounded (c :: cs).length f offset size := by
  unfold scan at h
  split at h
  · cases h
  · split at h
    · next start => exact scanNumber_bounds start h
    · split at h
      · exact scanQuotation_bounds h
      · split at h
        · cases h
        · cases h
          exact ⟨Nat.succ_pos _, Nat.zero_le _, fun text htext => by cases htext⟩

end Lexeme

/-! ## one step -/

namespace Cursor

/-- The text ahead is what the source holds from the offset on. -/
structure Inside (source : String) (c : Cursor) : Prop where
  offset_le : c.offset ≤ source.length
  rest_eq : c.rest = source.toList.drop c.offset

theorem inside_start (source : String) : (start source).Inside source :=
  ⟨Nat.zero_le _, rfl⟩

namespace Inside

variable {source : String} {c : Cursor}

theorem length_rest (hc : c.Inside source) : c.offset + c.rest.length = source.length := by
  have hle := hc.offset_le
  rw [hc.rest_eq, List.length_drop, String.length_toList]
  omega

theorem advance (hc : c.Inside source) {size : Nat} (hsize : size ≤ c.rest.length) :
    (c.advance size).Inside source := by
  have hlength := hc.length_rest
  refine ⟨?_, ?_⟩
  · show c.offset + size ≤ source.length
    omega
  · show c.rest.drop size = source.toList.drop (c.offset + size)
    rw [hc.rest_eq, List.drop_drop]

/-- The piece of the source that the cursor goes over. -/
theorem take_rest (hc : c.Inside source) (size : Nat) :
    c.rest.take size = (source.toList.take (c.offset + size)).drop c.offset := by
  rw [hc.rest_eq, List.drop_take, Nat.add_sub_cancel_left]

end Inside

theorem skipBlanks_eq_advance (c : Cursor) :
    c.skipBlanks = c.advance (c.rest.takeWhile Text.isBlank).length := by
  have hsplit : c.rest.takeWhile Text.isBlank ++ c.rest.dropWhile Text.isBlank = c.rest :=
    List.takeWhile_append_dropWhile
  have hdrop := congrArg (List.drop (c.rest.takeWhile Text.isBlank).length) hsplit
  rw [List.drop_left] at hdrop
  rw [skipBlanks, advance, hdrop]

theorem Inside.skipBlanks {source : String} {c : Cursor} (hc : c.Inside source) :
    c.skipBlanks.Inside source := by
  rw [skipBlanks_eq_advance]
  exact hc.advance (List.takeWhile_prefix Text.isBlank).length_le

/-- There is more than blanks ahead. -/
def HasToken (c : Cursor) : Prop := ∃ d ∈ c.rest, Text.isBlank d = false

theorem hasToken_of_skipBlanks {c : Cursor} {d : Char} {tail : List Char}
    (h : c.skipBlanks.rest = d :: tail) : c.HasToken := by
  have hdrop : c.rest.dropWhile Text.isBlank = d :: tail := h
  refine ⟨d, (List.dropWhile_suffix Text.isBlank).subset (hdrop ▸ List.mem_cons_self), ?_⟩
  have hnot := List.head?_dropWhile_not Text.isBlank c.rest
  rw [hdrop] at hnot
  simpa using hnot

/-- What may come of asking for the next token. The end is found where only blanks are ahead. A
token is a piece of the source from the cursor on, and the cursor goes behind it. A fault has its
column in the source, and the cursor does not go back. -/
def Advances (source : String) (c : Cursor) : Step → Prop
  | .done c' => c'.Inside source ∧ c.offset ≤ c'.offset ∧ c'.rest = [] ∧ ¬ c.HasToken
  | .token t c' => c'.Inside source ∧ c.offset ≤ t.index ∧ t.index < c'.offset ∧
      t.text.toList = (source.toList.take c'.offset).drop t.index ∧ c.HasToken
  | .error e c' => c'.Inside source ∧ c.offset ≤ c'.offset ∧ e.source = source ∧
      c.offset < e.column ∧ e.column ≤ source.length ∧
      (∀ text, e.fault ≠ .invalidNumber text) ∧ c.HasToken

theorem advances_next {source : String} {c : Cursor} (hc : c.Inside source) :
    c.Advances source (c.next source) := by
  have hskip := hc.skipBlanks
  have hle : c.offset ≤ c.skipBlanks.offset := Nat.le_add_right _ _
  have hlength := hskip.length_rest
  rw [next, read]
  split
  · next hrest =>
    refine ⟨hskip, hle, hrest, ?_⟩
    rintro ⟨d, hd, hblank⟩
    rw [List.dropWhile_eq_nil_iff.mp hrest d hd] at hblank
    cases hblank
  · next d tail hrest =>
    have htoken := hasToken_of_skipBlanks hrest
    rw [hrest] at hlength
    split
    · next content size hscan =>
      have hpos := Lexeme.size_scan_pos hscan
      have hsize := Lexeme.size_scan_le hscan
      rw [← hrest] at hsize
      refine ⟨hskip.advance hsize, hle, ?_, ?_, htoken⟩
      · show c.skipBlanks.offset < c.skipBlanks.offset + size
        omega
      · rw [String.toList_ofList]
        exact hskip.take_rest size
    · next f offset size hscan =>
      obtain ⟨hoffset, hsize, hunderstood⟩ := Lexeme.fault_bounds hscan
      rw [← hrest] at hsize
      refine ⟨hskip.advance hsize, Nat.le_trans hle (Nat.le_add_right _ _), rfl, ?_, ?_,
        hunderstood, htoken⟩
      · show c.offset < c.skipBlanks.offset + offset + 1
        omega
      · show c.skipBlanks.offset + offset + 1 ≤ source.length
        omega

/-! ## any number of steps -/

/-- Where the cursor stands after a step. -/
def Step.cursor : Step → Cursor
  | .done c | .token _ c | .error _ c => c

/-- Where the cursor stands when the next token was asked for `n` times. -/
def after (source : String) : Nat → Cursor
  | 0 => start source
  | n + 1 => ((after source n).next source).cursor

theorem Advances.inside {source : String} {c : Cursor} {step : Step} (h : c.Advances source step) :
    step.cursor.Inside source ∧ c.offset ≤ step.cursor.offset := by
  cases step with
  | done c' => exact ⟨h.1, h.2.1⟩
  | token t c' => exact ⟨h.1, Nat.le_of_lt (Nat.lt_of_le_of_lt h.2.1 h.2.2.1)⟩
  | error e c' => exact ⟨h.1, h.2.1⟩

theorem inside_after (source : String) (n : Nat) : (after source n).Inside source := by
  induction n with
  | zero => exact inside_start source
  | succ n ih => exact (advances_next ih).inside.1

theorem offset_after_mono (source : String) : Monotone fun n => (after source n).offset :=
  monotone_nat_of_le_succ fun n => (advances_next (inside_after source n)).inside.2

theorem next_eq_done_iff {source : String} {c : Cursor} (hc : c.Inside source) :
    (∃ c', c.next source = .done c') ↔ ¬ c.HasToken := by
  have hstep := advances_next hc
  cases hnext : c.next source with
  | done c' =>
    rw [hnext] at hstep
    exact ⟨fun _ => hstep.2.2.2, fun _ => ⟨c', rfl⟩⟩
  | token t c' =>
    rw [hnext] at hstep
    exact ⟨by rintro ⟨_, ⟨⟩⟩, fun hnone => absurd hstep.2.2.2.2 hnone⟩
  | error e c' =>
    rw [hnext] at hstep
    exact ⟨by rintro ⟨_, ⟨⟩⟩, fun hnone => absurd hstep.2.2.2.2.2.2 hnone⟩

/-- The end stays the end. -/
theorem done_of_le {source : String} {m n : Nat} (hmn : m ≤ n)
    (hdone : ∃ c, (after source m).next source = .done c) :
    ∃ c, (after source n).next source = .done c := by
  induction n, hmn using Nat.le_induction with
  | base => exact hdone
  | succ n _ ih =>
    obtain ⟨c, hc⟩ := ih
    have hstep := advances_next (inside_after source n)
    rw [hc] at hstep
    rw [next_eq_done_iff (inside_after source (n + 1)), after, hc]
    rintro ⟨d, hd, _⟩
    rw [Step.cursor, hstep.2.2.1] at hd
    cases hd

/-- **The scanner is safe and makes progress, also after faults.** After any number of steps the
cursor stands in the source, and it has not gone back. The next step finds the end if and only if
only blanks are left, and then every later one does. A token is the piece of the source that ends
where the cursor then stands, and is not empty. A fault comes with the source and a column of it,
and is never a number that was not understood. -/
theorem after_safe (source : String) (n : Nat) :
    ((after source n).offset ≤ source.length ∧
      (after source n).rest = source.toList.drop (after source n).offset ∧
      ∀ m, n ≤ m → (after source n).offset ≤ (after source m).offset) ∧
    ((∃ c, (after source n).next source = .done c) ↔
      ∀ d ∈ source.toList.drop (after source n).offset, Text.isBlank d = true) ∧
    ((∃ c, (after source n).next source = .done c) →
      ∀ m, n ≤ m → ∃ c, (after source m).next source = .done c) ∧
    (∀ t c, (after source n).next source = .token t c →
      (after source n).offset < c.offset ∧ c.offset ≤ source.length ∧ t.index < c.offset ∧
      t.text.toList = (source.toList.take c.offset).drop t.index) ∧
    ∀ e c, (after source n).next source = .error e c →
      e.source = source ∧ 1 ≤ e.column ∧ e.column ≤ source.length ∧
      ∀ text, e.fault ≠ .invalidNumber text := by
  have hinside := inside_after source n
  have hstep := advances_next hinside
  refine ⟨⟨hinside.offset_le, hinside.rest_eq, fun m hm => offset_after_mono source hm⟩, ?_,
    fun hdone m hm => done_of_le hm hdone, fun t c hnext => ?_, fun e c hnext => ?_⟩
  · rw [next_eq_done_iff hinside, HasToken, ← hinside.rest_eq]
    simp
  · rw [hnext] at hstep
    obtain ⟨hc, hle, hlt, htext, _⟩ := hstep
    exact ⟨Nat.lt_of_le_of_lt hle hlt, hc.offset_le, hlt, htext⟩
  · rw [hnext] at hstep
    obtain ⟨_, _, hsource, hlt, hle, hunderstood, _⟩ := hstep
    exact ⟨hsource, Nat.succ_le_of_lt (Nat.lt_of_le_of_lt (Nat.zero_le _) hlt), hle, hunderstood⟩

-- after the fault of the exponent the cursor stands behind its sign, and then behind the name
example : (after "1e+ a" 1).offset = 3 ∧ (after "1e+ a" 2).offset = 5 := by cbv

end Cursor

end TemplateExpr
