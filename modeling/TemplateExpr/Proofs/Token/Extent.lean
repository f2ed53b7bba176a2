import TemplateExpr.Proofs.Token.Numbers

/-!
# Where a token ends

The scanner looks at most two characters past a token. A token that was scanned before one text is
scanned before every other text that starts alike, or that starts with a separator.

* `isSeparator`              blanks and the semicolon, which end every token;
* `Delimits r r'`            a token that ends before `r` ends before `r'`;
* `Lexeme.scan_of_delimits`  it is then the same token;
* `Lexes.append`             the tokens of a text before a separator are its own;
* `Lexes.alone`              each token is scanned by itself before a separator.
-/

namespace TemplateExpr

/-! ## separators -/

theorem Text.not_isBlank_of_isNumeric {c : Char} (h : isNumeric c = true) : isBlank c = false := by
  rw [isNumeric] at h
  split at h
  · exact not_isBlank_of_isDigit h
  · exact inSpans_disjoint (by decide +kernel) h

/-- No blank is part of a name. -/
theorem not_isNamePart_of_isBlank {c : Char} (h : Text.isBlank c = true) :
    isNamePart c = false := by
  have hletter : Text.isAlphabetic c = false := by
    rw [Bool.eq_false_iff]
    intro hc
    rw [Text.not_isBlank_of_isAlphabetic hc] at h
    exact Bool.false_ne_true h
  have hnumeral : Text.isNumeric c = false := by
    rw [Bool.eq_false_iff]
    intro hc
    rw [Text.not_isBlank_of_isNumeric hc] at h
    exact Bool.false_ne_true h
  have hline : c ≠ '_' := by
    rintro rfl
    exact absurd h (by decide)
  have hdollar : c ≠ '$' := by
    rintro rfl
    exact absurd h (by decide)
  simp [isNamePart, hletter, hnumeral, hline, hdollar]

def isSeparator (c : Char) : Bool := Text.isBlank c || c == ';'

theorem not_isNamePart_of_isSeparator {c : Char} (h : isSeparator c = true) :
    isNamePart c = false := by
  rw [isSeparator, Bool.or_eq_true, beq_iff_eq] at h
  rcases h with h | rfl
  · exact not_isNamePart_of_isBlank h
  · decide

theorem not_isDigit_of_isSeparator {c : Char} (h : isSeparator c = true) : c.isDigit = false := by
  rw [Bool.eq_false_iff]
  intro hd
  have hpart := not_isNamePart_of_isSeparator h
  rw [isNamePart_of_isDigit hd] at hpart
  exact Bool.false_ne_true hpart.symm

/-! ## texts behind a token -/

/-- What a token that ends before `r` can see of `r'` is a separator, or what it sees of `r`. -/
def Delimits (r r' : List Char) : Prop :=
  ∀ c ∈ r'.head?, isSeparator c = true ∨
    r.head? = some c ∧ ∀ d ∈ r'.tail.head?, isSeparator d = true ∨ r.tail.head? = some d

/-- The text is empty or starts with a separator. -/
def Separated (rest : List Char) : Prop := ∀ c ∈ rest.head?, isSeparator c = true

theorem Separated.nil : Separated [] := by
  intro c hc
  simp at hc

theorem Separated.cons {c : Char} (h : isSeparator c = true) (rest : List Char) :
    Separated (c :: rest) := by
  intro d hd
  obtain rfl : c = d := by simpa using hd
  exact h

theorem Separated.delimits {rest : List Char} (h : Separated rest) (r : List Char) :
    Delimits r rest := fun c hc => .inl (h c hc)

theorem Separated.delimits_append {rest : List Char} (h : Separated rest) (r : List Char) :
    Delimits r (r ++ rest) := by
  intro c hc
  cases r with
  | nil => exact .inl (h c hc)
  | cons d tail =>
    obtain rfl : d = c := by simpa using hc
    refine .inr ⟨rfl, fun e he => ?_⟩
    cases tail with
    | nil => exact .inl (h e he)
    | cons f tail => exact .inr he

namespace Delimits

variable {r r' : List Char} (h : Delimits r r')
include h

/-- A class without separators that `r` does not start with. -/
theorem head {p : Char → Prop} (hp : ∀ c, isSeparator c = true → ¬ p c)
    (hr : ∀ c ∈ r.head?, ¬ p c) : ∀ c ∈ r'.head?, ¬ p c := by
  intro c hc
  rcases h c hc with hs | ⟨heq, _⟩
  · exact hp c hs
  · exact hr c heq

theorem not_isDigit (hr : ∀ c ∈ r.head?, c.isDigit = false) :
    ∀ c ∈ r'.head?, c.isDigit = false := by
  intro c hc
  have := h.head (p := fun c => c.isDigit = true)
    (fun c hs => by simp [not_isDigit_of_isSeparator hs]) (fun c hc => by simp [hr c hc]) c hc
  simpa using this

/-- A point with digits behind it. -/
theorem point (hr : r.head? = some '.' → ∀ d ∈ r.tail.head?, d.isDigit = false)
    (hpoint : r'.head? = some '.') : ∀ d ∈ r'.tail.head?, d.isDigit = false := by
  intro d hd
  rcases h '.' hpoint with hs | ⟨heq, htail⟩
  · exact absurd hs (by decide)
  · rcases htail d hd with hs | hd'
    · exact not_isDigit_of_isSeparator hs
    · exact hr heq d hd'

end Delimits

/-! ## numbers -/

namespace Lexeme

/-- Nothing, or a point and digits. -/
def IsFraction (fs : List Char) : Prop :=
  fs = [] ∨ ∃ d ds, fs = '.' :: d :: ds ∧ ∀ c ∈ d :: ds, c.isDigit = true

/-- Nothing, or a mark, a sign if there is one, and digits. -/
def IsExponent (es : List Char) : Prop :=
  es = [] ∨ ∃ mark sign d ds, es = mark :: (sign ++ d :: ds) ∧ (mark = 'e' ∨ mark = 'E') ∧
    (sign = [] ∨ sign = ['+'] ∨ sign = ['-']) ∧ ∀ c ∈ d :: ds, c.isDigit = true

/-- The text does not go on after a number with this fraction and exponent. -/
structure EndsNumber (fraction exponent rest : List Char) : Prop where
  digit : ∀ c ∈ rest.head?, c.isDigit = false
  mark : exponent = [] → ∀ c ∈ rest.head?, ¬ (c = 'e' ∨ c = 'E')
  point : fraction = [] → exponent = [] → rest.head? = some '.' →
    ∀ d ∈ rest.tail.head?, d.isDigit = false

theorem EndsNumber.delimits {fraction exponent r r' : List Char}
    (h : EndsNumber fraction exponent r) (hd : Delimits r r') :
    EndsNumber fraction exponent r' where
  digit := hd.not_isDigit h.digit
  mark he := by
    refine hd.head (fun c hs => ?_) (h.mark he)
    rintro (rfl | rfl)
    · exact absurd hs (by decide)
    · exact absurd hs (by decide)
  point hf he := hd.point (h.point hf he)

theorem splitFraction_append {fraction rest : List Char} (hf : IsFraction fraction)
    (hdigit : ∀ c ∈ rest.head?, c.isDigit = false)
    (hpoint : fraction = [] → rest.head? = some '.' → ∀ d ∈ rest.tail.head?, d.isDigit = false) :
    splitFraction (fraction ++ rest) = (fraction, rest) := by
  rcases hf with rfl | ⟨d, ds, rfl, hds⟩
  · unfold splitFraction
    split
    · next d tail heq =>
      have hd : d.isDigit = false := by
        obtain rfl : rest = '.' :: d :: tail := heq
        exact hpoint rfl rfl d rfl
      rw [if_neg (by simp [hd])]
      exact congrArg _ heq.symm
    · rfl
  · obtain ⟨htake, hdrop⟩ :=
      takeWhile_append_boundary (fun c hc => hds c (List.mem_cons_of_mem d hc)) hdigit
    show splitFraction ('.' :: d :: (ds ++ rest)) = _
    rw [splitFraction, if_pos (hds d (by simp)), htake, hdrop]

theorem splitSign_append {sign : List Char} (hs : sign = [] ∨ sign = ['+'] ∨ sign = ['-'])
    {d : Char} (hd : d.isDigit = true) (rest : List Char) :
    splitSign (sign ++ d :: rest) = (sign, d :: rest) := by
  rcases hs with rfl | rfl | rfl
  · unfold splitSign
    split
    · next heq =>
      obtain rfl : d = '+' := (List.cons.inj heq).1
      exact absurd hd (by decide)
    · next heq =>
      obtain rfl : d = '-' := (List.cons.inj heq).1
      exact absurd hd (by decide)
    · rfl
  · rfl
  · rfl

/-- A number is scanned as its parts, whatever does not go on after them. -/
theorem scanNumber_append {whole fraction exponent rest : List Char}
    (hw : ∀ c ∈ whole, c.isDigit = true) (hf : IsFraction fraction) (he : IsExponent exponent)
    (hr : EndsNumber fraction exponent rest) :
    scanNumber (whole ++ (fraction ++ (exponent ++ rest))) =
      numberToken (whole ++ fraction ++ exponent) := by
  have hexp : ∀ c ∈ (exponent ++ rest).head?, c.isDigit = false := by
    rcases he with rfl | ⟨mark, sign, d, ds, rfl, hmark, _⟩
    · exact hr.digit
    · intro c hc
      obtain rfl : mark = c := by simpa using hc
      rcases hmark with rfl | rfl <;> rfl
  have hpoint : fraction = [] → (exponent ++ rest).head? = some '.' →
      ∀ d ∈ (exponent ++ rest).tail.head?, d.isDigit = false := by
    rcases he with rfl | ⟨mark, sign, d, ds, rfl, hmark, _⟩
    · exact fun hfraction => hr.point hfraction rfl
    · intro _ hhead
      obtain rfl : mark = '.' := by simpa using hhead
      rcases hmark with hmark | hmark <;> exact absurd hmark (by decide)
  have hfrac : ∀ c ∈ (fraction ++ (exponent ++ rest)).head?, c.isDigit = false := by
    rcases hf with rfl | ⟨d, ds, rfl, _⟩
    · exact hexp
    · intro c hc
      obtain rfl : '.' = c := by simpa using hc
      rfl
  obtain ⟨htake, hdrop⟩ := takeWhile_append_boundary hw hfrac
  rw [scanNumber, hdrop, htake, splitFraction_append hf hexp hpoint]
  dsimp only
  rcases he with rfl | ⟨mark, sign, d, ds, rfl, hmark, hsign, hds⟩
  · rw [List.nil_append, List.append_nil]
    split
    · next mark tail =>
      rw [if_neg (hr.mark rfl mark rfl)]
    · rfl
  · obtain ⟨htake', _⟩ := takeWhile_append_boundary hds hr.digit
    have hsplit : splitSign (sign ++ d :: ds ++ rest) = (sign, d :: ds ++ rest) := by
      rw [List.append_assoc]
      exact splitSign_append hsign (hds d (by simp)) (ds ++ rest)
    rw [List.cons_append]
    dsimp only
    rw [if_pos hmark, hsplit]
    dsimp only
    rw [htake', if_neg (by simp)]
    simp

theorem splitSign_parts (cs : List Char) :
    ((splitSign cs).1 = [] ∨ (splitSign cs).1 = ['+'] ∨ (splitSign cs).1 = ['-']) ∧
      cs = (splitSign cs).1 ++ (splitSign cs).2 := by
  unfold splitSign
  split <;> simp

theorem head_dropWhile (cs : List Char) :
    ∀ c ∈ (cs.dropWhile Char.isDigit).head?, c.isDigit = false := by
  intro c hc
  have hnot := List.head?_dropWhile_not Char.isDigit cs
  rw [hc] at hnot
  simpa using hnot

theorem isFraction_splitFraction (cs : List Char) :
    IsFraction (splitFraction cs).1 ∧ cs = (splitFraction cs).1 ++ (splitFraction cs).2 ∧
      ((splitFraction cs).1 ≠ [] → ∀ c ∈ (splitFraction cs).2.head?, c.isDigit = false) ∧
      ((splitFraction cs).1 = [] → (splitFraction cs).2.head? = some '.' →
        ∀ d ∈ (splitFraction cs).2.tail.head?, d.isDigit = false) := by
  unfold splitFraction
  split
  · next d rest =>
    split
    · next hd =>
      refine ⟨.inr ⟨d, _, rfl, ?_⟩, ?_, fun _ => ?_, fun h => absurd h (by simp)⟩
      · intro c hc
        rcases List.mem_cons.mp hc with rfl | hc
        · exact hd
        · exact List.all_eq_true.mp List.all_takeWhile c hc
      · show _ = '.' :: d :: (rest.takeWhile Char.isDigit ++ rest.dropWhile Char.isDigit)
        rw [List.takeWhile_append_dropWhile]
      · exact head_dropWhile rest
    · next hd =>
      refine ⟨.inl rfl, rfl, fun h => absurd rfl h, fun _ _ e he => ?_⟩
      obtain rfl : d = e := by simpa using he
      simpa using hd
  · next hne =>
    refine ⟨.inl rfl, rfl, fun h => absurd rfl h, fun _ hpoint e he => ?_⟩
    obtain ⟨tail, rfl⟩ : ∃ tail, cs = '.' :: tail := List.head?_eq_some_iff.mp hpoint
    obtain ⟨tail', rfl⟩ : ∃ tail', tail = e :: tail' := List.head?_eq_some_iff.mp he
    exact absurd rfl (hne e tail')

/-- What is scanned as a number is made of the parts of one, unless digits are missing behind the
mark of an exponent. -/
theorem scanNumber_cases (cs : List Char) :
    (∃ whole fraction exponent rest, cs = whole ++ (fraction ++ (exponent ++ rest)) ∧
      (∀ c ∈ whole, c.isDigit = true) ∧ IsFraction fraction ∧ IsExponent exponent ∧
      EndsNumber fraction exponent rest) ∨
    ∃ mantissa mark sign rest, cs = mantissa ++ mark :: (sign ++ rest) ∧
      scanNumber cs =
        .fault .invalidExponent mantissa.length (mantissa.length + 1 + sign.length) := by
  have hwhole : ∀ c ∈ cs.takeWhile Char.isDigit, c.isDigit = true :=
    fun c hc => List.all_eq_true.mp List.all_takeWhile c hc
  have hafter := head_dropWhile cs
  obtain ⟨hf, happend, hdigit, hpoint⟩ := isFraction_splitFraction (cs.dropWhile Char.isDigit)
  have hcs : cs = cs.takeWhile Char.isDigit ++ cs.dropWhile Char.isDigit :=
    List.takeWhile_append_dropWhile.symm
  have hscan := scanNumber.eq_def cs
  generalize splitFraction (cs.dropWhile Char.isDigit) = split at hscan hf happend hdigit hpoint
  obtain ⟨fraction, rest⟩ := split
  dsimp only at hscan hf happend hdigit hpoint
  have hrest : ∀ c ∈ rest.head?, c.isDigit = false := by
    by_cases hne : fraction = []
    · rw [happend, hne] at hafter
      exact hafter
    · exact hdigit hne
  rw [happend] at hcs
  cases rest with
  | nil =>
    refine .inl ⟨_, fraction, [], [], hcs, hwhole, hf, .inl rfl, ⟨?_, ?_, ?_⟩⟩ <;> simp
  | cons mark tail =>
    dsimp only at hscan
    by_cases hmark : mark = 'e' ∨ mark = 'E'
    · rw [if_pos hmark] at hscan
      obtain ⟨hsign, htail⟩ := splitSign_parts tail
      generalize splitSign tail = split at hscan hsign htail
      obtain ⟨sign, digits⟩ := split
      dsimp only at hscan hsign htail
      by_cases hempty : (digits.takeWhile Char.isDigit).isEmpty = true
      · rw [if_pos hempty] at hscan
        refine .inr ⟨cs.takeWhile Char.isDigit ++ fraction, mark, sign, digits, ?_, hscan⟩
        rw [List.append_assoc, ← htail]
        exact hcs
      · have hds : ∀ c ∈ digits.takeWhile Char.isDigit, c.isDigit = true :=
          fun c hc => List.all_eq_true.mp List.all_takeWhile c hc
        have hdigits : digits = digits.takeWhile Char.isDigit ++ digits.dropWhile Char.isDigit :=
          List.takeWhile_append_dropWhile.symm
        obtain ⟨d, ds, hcons⟩ : ∃ d ds, digits.takeWhile Char.isDigit = d :: ds :=
          List.exists_cons_of_ne_nil (by simpa using hempty)
        rw [hcons] at hds hdigits
        refine .inl ⟨_, fraction, mark :: (sign ++ d :: ds), digits.dropWhile Char.isDigit, ?_,
          hwhole, hf, .inr ⟨mark, sign, d, ds, rfl, hmark, hsign, hds⟩,
          ⟨head_dropWhile digits, ?_, ?_⟩⟩
        · rw [htail, hdigits] at hcs
          simpa using hcs
        · exact fun hnil => absurd hnil (by simp)
        · exact fun _ hnil => absurd hnil (by simp)
    · refine .inl ⟨_, fraction, [], mark :: tail, hcs, hwhole, hf, .inl rfl, ⟨hrest, ?_, ?_⟩⟩
      · intro _ c hc
        obtain rfl : mark = c := by simpa using hc
        exact hmark
      · exact fun hfraction _ => hpoint hfraction

/-- The parts of a number that was scanned. -/
theorem parts_of_scanNumber {cs : List Char} {content : Token.Content} {size : Nat}
    (h : scanNumber cs = .token content size) :
    ∃ whole fraction exponent rest, cs = whole ++ (fraction ++ (exponent ++ rest)) ∧
      (∀ c ∈ whole, c.isDigit = true) ∧ IsFraction fraction ∧ IsExponent exponent ∧
      EndsNumber fraction exponent rest := by
  obtain hparts | ⟨mantissa, mark, sign, rest, _, hfault⟩ := scanNumber_cases cs
  · exact hparts
  · rw [hfault] at h
    cases h

theorem startsNumber_of_parts {c : Char} {cs whole fraction exponent rest rest' : List Char}
    (hw : ∀ c ∈ whole, c.isDigit = true) (hf : IsFraction fraction) (he : IsExponent exponent)
    (htext : c :: cs = whole ++ fraction ++ exponent)
    (h : startsNumber c (cs ++ rest) = true) : startsNumber c (cs ++ rest') = true := by
  cases whole with
  | cons d ds =>
    obtain rfl : c = d := (List.cons.inj htext).1
    rw [startsNumber, hw c (by simp), Bool.true_or]
  | nil =>
    rcases hf with rfl | ⟨d, ds, rfl, hds⟩
    · rcases he with rfl | ⟨mark, sign, d, ds, rfl, hmark, _⟩
      · simp at htext
      · obtain rfl : c = mark := (List.cons.inj htext).1
        rcases hmark with rfl | rfl <;> exact absurd h (by simp [startsNumber, Char.isDigit])
    · obtain ⟨rfl, rfl⟩ := List.cons.inj htext
      have hd : d.isDigit = true := hds d (by simp)
      simp [startsNumber, hd]

/-- A number is the same one before every text that does not go on after it. -/
theorem scanNumber_of_delimits {text r r' : List Char} {content : Token.Content}
    (h : scanNumber (text ++ r) = .token content text.length) (hd : Delimits r r') :
    scanNumber (text ++ r') = .token content text.length ∧
      ∃ whole fraction exponent, text = whole ++ fraction ++ exponent ∧
        (∀ c ∈ whole, c.isDigit = true) ∧ IsFraction fraction ∧ IsExponent exponent := by
  obtain ⟨whole, fraction, exponent, rest, hcs, hw, hf, he, hr⟩ := parts_of_scanNumber h
  have hnumber : numberToken (whole ++ fraction ++ exponent) = .token content text.length := by
    rw [← scanNumber_append hw hf he hr, ← hcs, h]
  obtain ⟨rfl, rfl⟩ : text = whole ++ fraction ++ exponent ∧ r = rest := by
    refine List.append_inj ?_ (size_numberToken hnumber)
    rw [hcs]
    simp
  refine ⟨?_, whole, fraction, exponent, rfl, hw, hf, he⟩
  rw [← hnumber, ← scanNumber_append hw hf he (hr.delimits hd)]
  simp

/-! ## symbols -/

theorem symbolLength?_congr {c : Char} {r r' : List Char} (h : r.head? = r'.head?) :
    symbolLength? c r = symbolLength? c r' := by
  simp only [symbolLength?, h]

theorem symbolLength?_of_delimits {c : Char} {cs r r' : List Char}
    (h : symbolLength? c (cs ++ r) = some (c :: cs).length) (hd : Delimits r r') :
    symbolLength? c (cs ++ r') = some (c :: cs).length := by
  cases cs with
  | cons d ds =>
    rw [← h]
    exact symbolLength?_congr rfl
  | nil =>
    -- A symbol of one character is one only because of what does not follow it.
    have hnext : ∀ m : Char, isSeparator m = false → r.head? ≠ some m → r'.head? ≠ some m := by
      intro m hm hr hr'
      rcases hd m hr' with hs | ⟨heq, _⟩
      · rw [hm] at hs
        exact Bool.false_ne_true hs
      · exact hr heq
    have hequals := hnext '=' (by decide)
    have hbar := hnext '|' (by decide)
    rw [List.nil_append] at h ⊢
    unfold symbolLength? at h ⊢
    grind

end Lexeme

/-! ## quotations -/

/-- A quotation ends with its closing quote, whatever follows. -/
theorem Quotation.scan_take {quote : Char} {cs content : List Char} {size : Nat}
    (h : scan quote cs = closed content size) (rest : List Char) :
    scan quote (cs.take size ++ rest) = closed content size := by
  fun_induction scan quote cs generalizing content size with
  | case1 => simp at h
  | case2 tail =>
    obtain ⟨rfl, rfl⟩ : [] = content ∧ 1 = size := by simpa using h
    rw [List.take_succ_cons, List.cons_append, scan.eq_def]
    simp
  | case3 => simp at h
  | case4 tail decoded hdecoded hquote ih =>
    obtain ⟨inner, m, hq, rfl, rfl⟩ := cons_eq_closed h
    have hlength := length_of_decodeHex? hdecoded
    have htake : ('\\' :: 'u' :: tail).take (6 + m) =
        '\\' :: 'u' :: (tail.take 4 ++ (tail.drop 4).take m) := by
      rw [Nat.add_comm, List.take_succ_cons, List.take_succ_cons, Nat.add_comm m 4, List.take_add]
    rw [htake, List.cons_append, List.cons_append, List.append_assoc, scan.eq_def]
    have hfour : (tail.take 4 ++ ((tail.drop 4).take m ++ rest)).take 4 = tail.take 4 :=
      List.take_left' hlength
    have hmore : (tail.take 4 ++ ((tail.drop 4).take m ++ rest)).drop 4 =
        (tail.drop 4).take m ++ rest := List.drop_left' hlength
    simp only [hquote, if_false, if_true, hfour, hmore, hdecoded, ih hq, Quotation.cons]
  | case5 => simp at h
  | case6 e tail hquote hu ih =>
    obtain ⟨inner, m, hq, rfl, rfl⟩ := cons_eq_closed h
    rw [Nat.add_comm, List.take_succ_cons, List.take_succ_cons, List.cons_append,
      List.cons_append, scan.eq_def]
    simp only [hquote, if_false, if_true, hu, ih hq, Quotation.cons, Nat.add_comm]
  | case7 c tail hquote hescape ih =>
    obtain ⟨inner, m, hq, rfl, rfl⟩ := cons_eq_closed h
    rw [Nat.add_comm, List.take_succ_cons, List.cons_append, scan.eq_def]
    simp only [hquote, if_false, hescape, ih hq, Quotation.cons, Nat.add_comm]

/-! ## tokens -/

/-- Where a run of characters ends, read off its length. -/
theorem boundary_of_takeWhile {p : Char → Bool} {cs r : List Char}
    (h : ((cs ++ r).takeWhile p).length = cs.length) :
    (∀ d ∈ cs, p d = true) ∧ ∀ d ∈ r.head?, p d = false := by
  induction cs with
  | nil =>
    refine ⟨by simp, fun d hd => ?_⟩
    obtain ⟨tail, rfl⟩ : ∃ tail, r = d :: tail := List.head?_eq_some_iff.mp hd
    rw [Bool.eq_false_iff]
    intro hp
    simp [List.takeWhile_cons_of_pos hp] at h
  | cons c cs ih =>
    cases hp : p c with
    | false => simp [hp] at h
    | true =>
      rw [List.cons_append, List.takeWhile_cons_of_pos hp, List.length_cons, List.length_cons,
        Nat.add_right_cancel_iff] at h
      refine ⟨fun d hd => ?_, (ih h).2⟩
      rcases List.mem_cons.mp hd with rfl | hd
      · exact hp
      · exact (ih h).1 d hd

namespace Lexeme

theorem scanQuotation_append {quote : Char} {cs r r' : List Char} {content : Token.Content}
    (h : scanQuotation quote (cs ++ r) = .token content (quote :: cs).length) :
    scanQuotation quote (cs ++ r') = .token content (quote :: cs).length := by
  unfold scanQuotation at h
  split at h
  · next inner size hscan =>
    obtain ⟨rfl, hsize⟩ : Token.Content.str (String.ofList inner) = content ∧
        1 + size = (quote :: cs).length := by simpa using h
    obtain rfl : size = cs.length := by
      rw [List.length_cons] at hsize
      omega
    have hagain := Quotation.scan_take hscan r'
    rw [List.take_left] at hagain
    rw [scanQuotation, hagain, ← hsize]
  · simp at h
  · simp at h

theorem startsNumber_of_delimits {c : Char} {cs r r' : List Char}
    (h : startsNumber c (cs ++ r) = false) (hd : Delimits r r') :
    startsNumber c (cs ++ r') = false := by
  cases cs with
  | cons d ds => exact h
  | nil =>
    rw [List.nil_append] at h ⊢
    rw [startsNumber, Bool.or_eq_false_iff] at h ⊢
    refine ⟨h.1, ?_⟩
    by_cases hpoint : c = '.'
    · have hdigit : ∀ d ∈ r.head?, d.isDigit = false := by
        intro d hd'
        have hany := h.2
        rw [hpoint, hd'] at hany
        simpa using hany
      have hdigit' := hd.not_isDigit hdigit
      cases hhead : r'.head? with
      | none => simp
      | some d => simp [hdigit' d hhead]
    · simp [hpoint]

/-- **A token is the same one before every text that does not go on after it.** -/
theorem scan_of_delimits {c : Char} {cs r r' : List Char} {content : Token.Content}
    (h : scan c (cs ++ r) = .token content (c :: cs).length) (hd : Delimits r r') :
    scan c (cs ++ r') = .token content (c :: cs).length := by
  unfold scan at h ⊢
  by_cases hname : isNameStart c = true
  · rw [if_pos hname] at h ⊢
    obtain ⟨rfl, hsize⟩ : Token.Content.word = content ∧
        1 + ((cs ++ r).takeWhile isNamePart).length = (c :: cs).length := by simpa using h
    have hlength : ((cs ++ r).takeWhile isNamePart).length = cs.length := by
      rw [List.length_cons] at hsize
      omega
    obtain ⟨hparts, hend⟩ := boundary_of_takeWhile hlength
    have hend' : ∀ d ∈ r'.head?, isNamePart d = false := by
      intro d hd'
      have hnot := hd.head (p := fun d => isNamePart d = true)
        (fun d hs => by simp [not_isNamePart_of_isSeparator hs])
        (fun d hr => by simp [hend d hr]) d hd'
      simpa using hnot
    rw [(takeWhile_append_boundary hparts hend').1, List.length_cons, Nat.add_comm]
  · rw [if_neg hname] at h ⊢
    by_cases hnumber : startsNumber c (cs ++ r) = true
    · rw [if_pos hnumber, ← List.cons_append] at h
      obtain ⟨hscan, whole, fraction, exponent, htext, hw, hf, he⟩ :=
        scanNumber_of_delimits h hd
      rw [if_pos (startsNumber_of_parts hw hf he htext hnumber)]
      exact hscan
    · rw [if_neg hnumber] at h
      have hnumber' := startsNumber_of_delimits (Bool.eq_false_iff.mpr hnumber) hd
      rw [if_neg (by simp [hnumber'])]
      by_cases hquote : c = '"' ∨ c = '\''
      · rw [if_pos hquote] at h ⊢
        exact scanQuotation_append h
      · rw [if_neg hquote] at h ⊢
        cases hsymbol : symbolLength? c (cs ++ r) with
        | none => simp [hsymbol] at h
        | some n =>
          obtain ⟨rfl, rfl⟩ : Token.Content.symbol = content ∧ n = (c :: cs).length := by
            simpa [hsymbol] using h
          rw [symbolLength?_of_delimits hsymbol hd]

theorem size_symbol_le {c : Char} {cs : List Char} {n : Nat} (h : symbolLength? c cs = some n) :
    n ≤ (c :: cs).length := by
  cases cs with
  | nil =>
    unfold symbolLength? at h
    grind
  | cons d ds =>
    unfold symbolLength? at h
    grind

theorem size_scan_le {c : Char} {cs : List Char} {content : Token.Content} {size : Nat}
    (h : scan c cs = .token content size) : size ≤ (c :: cs).length := by
  unfold scan at h
  split at h
  · obtain ⟨-, rfl⟩ : _ ∧ 1 + (cs.takeWhile isNamePart).length = size := by simpa using h
    have := (List.takeWhile_prefix isNamePart (l := cs)).length_le
    rw [List.length_cons]
    omega
  · split at h
    · obtain ⟨whole, fraction, exponent, rest, hcs, hw, hf, he, hr⟩ := parts_of_scanNumber h
      rw [hcs, scanNumber_append hw hf he hr] at h
      rw [hcs, size_numberToken h]
      simp only [List.length_append]
      omega
    · split at h
      · unfold scanQuotation at h
        split at h
        · next inner size' hscan =>
          obtain ⟨-, rfl⟩ : _ ∧ 1 + size' = size := by simpa using h
          have := Quotation.size_le_length hscan
          rw [List.length_cons]
          omega
        · simp at h
        · simp at h
      · split at h
        · next n hn =>
          obtain ⟨-, rfl⟩ : _ ∧ n = size := by simpa using h
          exact size_symbol_le hn
        · simp at h

/-- The text of a token and the text behind it. -/
theorem parts_of_scan {c : Char} {cs : List Char} {content : Token.Content} {size : Nat}
    (h : scan c cs = .token content size) :
    ∃ text rest, cs = text ++ rest ∧ size = (c :: text).length := by
  have hle := size_scan_le h
  have hpos := size_scan_pos h
  refine ⟨cs.take (size - 1), cs.drop (size - 1), (List.take_append_drop ..).symm, ?_⟩
  rw [List.length_cons] at hle
  rw [List.length_cons, List.length_take]
  omega

end Lexeme

/-! ## texts -/

namespace Lexes

/-- Induction on a text, with each token apart from the text behind it. -/
@[elab_as_elim]
theorem pieces {motive : List Char → List Token → Prop} (done : motive [] [])
    (blank : ∀ c cs ts, Text.isBlank c = true → motive cs ts → motive (c :: cs) ts)
    (token : ∀ c text r content ts, Text.isBlank c = false →
      Lexeme.scan c (text ++ r) = .token content (c :: text).length → motive r ts →
      motive (c :: text ++ r) (⟨0, String.ofList (c :: text), content⟩ :: ts))
    {cs : List Char} {ts : List Token} (h : Lexes cs ts) : motive cs ts := by
  induction h with
  | done => exact done
  | blank hb _ ih => exact blank _ _ _ hb ih
  | @token c cs content size ts hb hs _ ih =>
    obtain ⟨text, r, rfl, rfl⟩ := Lexeme.parts_of_scan hs
    rw [← List.cons_append, List.drop_left] at ih
    rw [← List.cons_append, List.take_left]
    exact token c text r content ts hb hs ih

/-- **A separator keeps the tokens before it as they are.** -/
theorem append {cs rest : List Char} {ts us : List Token} (h : Lexes cs ts)
    (hr : Separated rest) (hu : Lexes rest us) : Lexes (cs ++ rest) (ts ++ us) := by
  refine pieces ?done ?blank ?token h
  case done => exact hu
  case blank =>
    intro c cs ts hb ih
    exact .blank hb ih
  case token =>
    intro c text r content ts hb hs ih
    have hs' := Lexeme.scan_of_delimits hs (hr.delimits_append r)
    rw [List.append_assoc]
    exact .of_scan (List.cons_append ..) hb hs' ih

/-- **Each token of a text is scanned by itself before a separator.** -/
theorem alone {cs rest : List Char} {ts us : List Token} (h : Lexes cs ts)
    (hr : Separated rest) (hu : Lexes rest us) :
    ∀ t ∈ ts, Lexes (t.text.toList ++ rest) (t :: us) := by
  refine pieces ?done ?blank ?token h
  case done => simp
  case blank =>
    intro c cs ts _ ih
    exact ih
  case token =>
    intro c text r content ts hb hs ih t ht
    rcases List.mem_cons.mp ht with rfl | ht
    · have hs' := Lexeme.scan_of_delimits hs (hr.delimits r)
      rw [String.toList_ofList]
      exact .of_scan (List.cons_append ..) hb hs' hu
    · exact ih t ht

end Lexes

end TemplateExpr
