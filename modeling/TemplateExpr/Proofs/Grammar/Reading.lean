import TemplateExpr.Expr.Parse

/-!
# What the functions of the grammar read

A reading forgets why a function failed and the proof that it went forward. What is left is the
tree and the tokens after it, and on these every function has one equation.

* `Outcome.reading`             the reading of an outcome;
* `after`                       the tokens after one with a given spelling;
* `reading_expression`, ...     the equation of each function;
* `length_of_reading`           what is left is shorter.
-/

namespace TemplateExpr.Grammar

/-- What was read and the tokens that are left, or nothing if reading failed. -/
abbrev Reading (α : Type) := Option (α × List Token)

def Outcome.reading {α : Type} {n : Nat} : Outcome α n → Reading α
  | .ok p => some (p.value, p.rest)
  | .error _ => none

section
variable {α : Type} {n : Nat}

@[simp] theorem reading_ok (p : Parsed α n) :
    Outcome.reading (.ok p) = some (p.value, p.rest) := rfl
@[simp] theorem reading_error (e : GrammarError) :
    Outcome.reading (.error e : Outcome α n) = none := rfl
@[simp] theorem reading_failAt (source : String) (ts : List Token) (fault : GrammarFault) :
    Outcome.reading (failAt source ts fault : Outcome α n) = none := rfl
@[simp] theorem reading_unexpected (source : String) (ts : List Token) :
    Outcome.reading (unexpected source ts : Outcome α n) = none := by cases ts <;> rfl

end

/-- The tokens after the first if that is spelled as given. -/
def after (spelling : String) : List Token → Option (List Token)
  | [] => none
  | t :: rest => if t.isSpelled spelling then some rest else none

theorem skip?_eq_none {s : String} {ts : List Token} (h : after s ts = none) :
    skip? s ts = none := by
  cases ts with
  | nil => rfl
  | cons t rest =>
    simp only [after] at h
    simp only [skip?]
    split at h
    · simp at h
    · next hn => rw [if_neg hn]

theorem skip?_eq_some {s : String} {ts rest : List Token} (h : after s ts = some rest) :
    ∃ hl, skip? s ts = some ⟨rest, hl⟩ := by
  cases ts with
  | nil => simp [after] at h
  | cons t rest =>
    simp only [after] at h
    simp only [skip?]
    split at h
    · next hn =>
      simp only [Option.some.injEq] at h
      subst h
      rw [if_pos hn]; exact ⟨_, rfl⟩
    · simp at h

theorem expect_of_none (source : String) {s : String} {ts : List Token} (h : after s ts = none) :
    expect source s ts = failAt source ts (.missing s) := by
  rw [expect, skip?_eq_none h]

theorem expect_of_some (source : String) {s : String} {ts rest : List Token} (h : after s ts = some rest) :
    ∃ hl, expect source s ts = .ok ⟨rest, hl⟩ := by
  obtain ⟨hl, hs⟩ := skip?_eq_some h
  exact ⟨hl, by rw [expect, hs]⟩

/-! ## the equations -/

theorem reading_expression (source : String) (ts : List Token) :
    (expression source ts).reading = (conditional source ts).reading.bind fun (target, rest) =>
      match after "=" rest with
      | none => some (target, rest)
      | some rest' =>
        if target.isAssignable then
          (expression source rest').reading.map fun (value, rest'') =>
            (.assign target value, rest'')
        else none := by
  rw [expression]
  cases conditional source ts with
  | error e => rfl
  | ok p =>
    obtain ⟨target, rest, h⟩ := p
    simp only [reading_ok, Option.bind_some]
    cases ha : after "=" rest with
    | none => rw [skip?_eq_none ha]; rfl
    | some rest' =>
      obtain ⟨hl, hs⟩ := skip?_eq_some ha
      rw [hs]
      simp only
      split
      · cases expression source rest' <;> rfl
      · rfl

theorem reading_conditional (source : String) (ts : List Token) :
    (conditional source ts).reading =
      (binary source .disjunction ts).reading.bind fun (condition, rest) =>
        match after "?" rest with
        | none => some (condition, rest)
        | some rest₁ =>
          (expression source rest₁).reading.bind fun (yes, rest₂) =>
            (after ":" rest₂).bind fun rest₃ =>
              (expression source rest₃).reading.map fun (no, rest₄) =>
                (.conditional condition yes no, rest₄) := by
  rw [conditional]
  cases binary source .disjunction ts with
  | error e => rfl
  | ok p =>
    obtain ⟨condition, rest, h⟩ := p
    simp only [reading_ok, Option.bind_some]
    cases ha : after "?" rest with
    | none => rw [skip?_eq_none ha]; rfl
    | some rest₁ =>
      obtain ⟨hl, hs⟩ := skip?_eq_some ha
      rw [hs]
      simp only
      cases expression source rest₁ with
      | error e => rfl
      | ok p =>
        obtain ⟨yes, rest₂, h₂⟩ := p
        simp only [reading_ok, Option.bind_some]
        cases hc : after ":" rest₂ with
        | none => rw [skip?_eq_none hc]; rfl
        | some rest₃ =>
          obtain ⟨hl', hs'⟩ := skip?_eq_some hc
          rw [hs']
          simp only [Option.bind_some]
          cases expression source rest₃ <;> rfl

theorem reading_binary (source : String) (p : Precedence) (ts : List Token) :
    (binary source p ts).reading =
      (operand source p ts).reading.bind fun (left, rest) =>
        (binaryRest source p left rest).reading := by
  rw [binary]
  cases operand source p ts with
  | error e => rfl
  | ok q =>
    obtain ⟨left, rest, h⟩ := q
    simp only [reading_ok, Option.bind_some]
    cases binaryRest source p left rest <;> rfl

theorem reading_operand (source : String) (p : Precedence) (ts : List Token) :
    (operand source p ts).reading =
      match p.tighter? with
      | some q => (binary source q ts).reading
      | none => (unary source ts).reading := by
  rw [operand]
  split <;> next h => rw [h]

theorem reading_binaryRest_nil (source : String) (p : Precedence) (left : Expr) :
    (binaryRest source p left []).reading = some (left, []) := by
  rw [binaryRest]; rfl

theorem reading_binaryRest_cons (source : String) (p : Precedence) (left : Expr) (t : Token)
    (rest : List Token) :
    (binaryRest source p left (t :: rest)).reading =
      match operator? p t with
      | none => some (left, t :: rest)
      | some op =>
        (operand source p rest).reading.bind fun (right, rest₁) =>
          (binaryRest source p (.binary op left right) rest₁).reading := by
  rw [binaryRest]
  cases operator? p t with
  | none => rfl
  | some op =>
    simp only
    cases operand source p rest with
    | error e => rfl
    | ok q =>
      obtain ⟨right, rest₁, h₁⟩ := q
      simp only [reading_ok, Option.bind_some]
      cases binaryRest source p (.binary op left right) rest₁ <;> rfl

theorem reading_unary (source : String) (ts : List Token) :
    (unary source ts).reading =
      match after "+" ts with
      | some rest => (unary source rest).reading
      | none =>
        match after "-" ts with
        | some rest =>
          (unary source rest).reading.map fun (e, rest') =>
            (.binary (.arith .subtract) (.literal (.int 0)) e, rest')
        | none =>
          match after "!" ts with
          | some rest => (unary source rest).reading.map fun (e, rest') => (.not e, rest')
          | none => (access source ts).reading := by
  rw [unary]
  cases hp : after "+" ts with
  | some rest =>
    obtain ⟨hl, hs⟩ := skip?_eq_some hp
    rw [hs]
    simp only
    cases unary source rest <;> rfl
  | none =>
    rw [skip?_eq_none hp]
    simp only
    cases hm : after "-" ts with
    | some rest =>
      obtain ⟨hl, hs⟩ := skip?_eq_some hm
      rw [hs]
      simp only
      cases unary source rest <;> rfl
    | none =>
      rw [skip?_eq_none hm]
      simp only
      cases hn : after "!" ts with
      | some rest =>
        obtain ⟨hl, hs⟩ := skip?_eq_some hn
        rw [hs]
        simp only
        cases unary source rest <;> rfl
      | none => rw [skip?_eq_none hn]

theorem reading_access (source : String) (ts : List Token) :
    (access source ts).reading =
      (primary source ts).reading.bind fun (start, rest) =>
        (accessRest source start rest).reading := by
  rw [access]
  cases primary source ts with
  | error e => rfl
  | ok p =>
    obtain ⟨start, rest, h⟩ := p
    simp only [reading_ok, Option.bind_some]
    cases accessRest source start rest <;> rfl

theorem reading_name_cons (source : String) (t : Token) (rest : List Token) :
    (name source (t :: rest)).reading = t.name?.map fun n => (n, rest) := by
  rw [name]
  cases t.name? <;> rfl

section
variable (source : String) (start : Expr) {ts rest : List Token}

theorem reading_accessRest_member (hd : after "." ts = some rest) :
    (accessRest source start ts).reading =
      (name source rest).reading.bind fun (n, rest₁) =>
        match after "(" rest₁ with
        | none => (accessRest source (.member start n) rest₁).reading
        | some rest₂ =>
          (arguments source ")" rest₂).reading.bind fun (args, rest₃) =>
            (accessRest source (.callMember start n args) rest₃).reading := by
  obtain ⟨hl, hs⟩ := skip?_eq_some hd
  rw [accessRest, hs]
  simp only
  cases name source rest with
  | error e => rfl
  | ok p =>
    obtain ⟨n, rest₁, h₁⟩ := p
    simp only [reading_ok, Option.bind_some]
    cases hp : after "(" rest₁ with
    | none =>
      rw [skip?_eq_none hp]
      simp only
      cases accessRest source (.member start n) rest₁ <;> rfl
    | some rest₂ =>
      obtain ⟨hl', hs'⟩ := skip?_eq_some hp
      rw [hs']
      simp only
      cases arguments source ")" rest₂ with
      | error e => rfl
      | ok p =>
        obtain ⟨args, rest₃, h₃⟩ := p
        simp only [reading_ok, Option.bind_some]
        cases accessRest source (.callMember start n args) rest₃ <;> rfl

theorem reading_accessRest_keyed (hd : after "." ts = none) (hb : after "[" ts = some rest) :
    (accessRest source start ts).reading =
      (expression source rest).reading.bind fun (key, rest₁) =>
        (after "]" rest₁).bind fun rest₂ =>
          (accessRest source (.keyed start key) rest₂).reading := by
  obtain ⟨hl, hs⟩ := skip?_eq_some hb
  rw [accessRest, skip?_eq_none hd, hs]
  simp only
  cases expression source rest with
  | error e => rfl
  | ok p =>
    obtain ⟨key, rest₁, h₁⟩ := p
    simp only [reading_ok, Option.bind_some]
    cases hc : after "]" rest₁ with
    | none => rw [expect_of_none source hc]; rfl
    | some rest₂ =>
      obtain ⟨hl', hs'⟩ := expect_of_some source hc
      rw [hs']
      simp only [Option.bind_some]
      cases accessRest source (.keyed start key) rest₂ <;> rfl

theorem reading_accessRest_call (hd : after "." ts = none) (hb : after "[" ts = none)
    (hp : after "(" ts = some rest) :
    (accessRest source start ts).reading =
      (arguments source ")" rest).reading.bind fun (args, rest₁) =>
        (accessRest source (.callFunction start args) rest₁).reading := by
  obtain ⟨hl, hs⟩ := skip?_eq_some hp
  rw [accessRest, skip?_eq_none hd, skip?_eq_none hb, hs]
  simp only
  cases arguments source ")" rest with
  | error e => rfl
  | ok p =>
    obtain ⟨args, rest₁, h₁⟩ := p
    simp only [reading_ok, Option.bind_some]
    cases accessRest source (.callFunction start args) rest₁ <;> rfl

end

theorem reading_accessRest (source : String) (start : Expr) (ts : List Token) :
    (accessRest source start ts).reading =
      match after "." ts with
      | some rest =>
        (name source rest).reading.bind fun (n, rest₁) =>
          match after "(" rest₁ with
          | none => (accessRest source (.member start n) rest₁).reading
          | some rest₂ =>
            (arguments source ")" rest₂).reading.bind fun (args, rest₃) =>
              (accessRest source (.callMember start n args) rest₃).reading
      | none =>
        match after "[" ts with
        | some rest =>
          (expression source rest).reading.bind fun (key, rest₁) =>
            (after "]" rest₁).bind fun rest₂ =>
              (accessRest source (.keyed start key) rest₂).reading
        | none =>
          match after "(" ts with
          | some rest =>
            (arguments source ")" rest).reading.bind fun (args, rest₁) =>
              (accessRest source (.callFunction start args) rest₁).reading
          | none => some (start, ts) := by
  cases hd : after "." ts with
  | some rest => exact reading_accessRest_member source start hd
  | none =>
    cases hb : after "[" ts with
    | some rest => exact reading_accessRest_keyed source start hd hb
    | none =>
      cases hp : after "(" ts with
      | some rest => exact reading_accessRest_call source start hd hb hp
      | none => rw [accessRest, skip?_eq_none hd, skip?_eq_none hb, skip?_eq_none hp]; rfl

/-- What a token alone stands for, where a word before a parenthesis is a call. -/
def atom (source : String) : List Token → Reading Expr
  | [] => none
  | t :: rest =>
    match constant? t with
    | some v => some (.literal v, rest)
    | none =>
      match t.content with
      | .number n => some (.literal (.ofNumber n), rest)
      | .str s => some (.str s, rest)
      | .symbol => none
      | .word =>
        match after "(" rest with
        | none => some (.scope t.text, rest)
        | some rest₁ =>
          (arguments source ")" rest₁).reading.map fun (args, rest₂) =>
            (.callScope t.text args, rest₂)

theorem reading_primary_atom (source : String) {ts : List Token} (hp : after "(" ts = none)
    (hb : after "[" ts = none) (ho : after "\x7b" ts = none) :
    (primary source ts).reading = atom source ts := by
  rw [primary, skip?_eq_none hp, skip?_eq_none hb, skip?_eq_none ho]
  simp only
  cases ts with
  | nil => rfl
  | cons t rest =>
    simp only [first, atom]
    cases constant? t with
    | some v => rfl
    | none =>
      simp only
      cases t.content with
      | number n => rfl
      | str s => rfl
      | symbol => rfl
      | word =>
        simp only
        cases hq : after "(" rest with
        | none => rw [skip?_eq_none hq]; rfl
        | some rest₁ =>
          obtain ⟨hl, hs⟩ := skip?_eq_some hq
          rw [hs]
          simp only
          cases arguments source ")" rest₁ <;> rfl

theorem reading_primary (source : String) (ts : List Token) :
    (primary source ts).reading =
      match after "(" ts with
      | some rest =>
        (expression source rest).reading.bind fun (e, rest₁) => (after ")" rest₁).map (e, ·)
      | none =>
        match after "[" ts with
        | some rest =>
          (arguments source "]" rest).reading.map fun (elements, rest₁) =>
            (.array elements, rest₁)
        | none =>
          match after "\x7b" ts with
          | some rest =>
            (entries source rest).reading.map fun (pairs, rest₁) =>
              (.object (pairs.map Prod.fst) (pairs.map Prod.snd), rest₁)
          | none => atom source ts := by
  cases hp : after "(" ts with
  | some rest =>
    obtain ⟨hl, hs⟩ := skip?_eq_some hp
    rw [primary, hs]
    simp only
    cases expression source rest with
    | error e => rfl
    | ok p =>
      obtain ⟨e, rest₁, h₁⟩ := p
      simp only [reading_ok, Option.bind_some]
      cases hc : after ")" rest₁ with
      | none => rw [expect_of_none source hc]; rfl
      | some rest₂ =>
        obtain ⟨hl', hs'⟩ := expect_of_some source hc
        rw [hs']; rfl
  | none =>
    cases hb : after "[" ts with
    | some rest =>
      obtain ⟨hl, hs⟩ := skip?_eq_some hb
      rw [primary, skip?_eq_none hp, hs]
      simp only
      cases arguments source "]" rest <;> rfl
    | none =>
      cases ho : after "\x7b" ts with
      | some rest =>
        obtain ⟨hl, hs⟩ := skip?_eq_some ho
        rw [primary, skip?_eq_none hp, skip?_eq_none hb, hs]
        simp only
        cases entries source rest <;> rfl
      | none => exact reading_primary_atom source hp hb ho

theorem reading_arguments (source close : String) (ts : List Token) :
    (arguments source close ts).reading =
      match after close ts with
      | some rest => some ([], rest)
      | none => (items source ts).reading.bind fun (es, rest) => (after close rest).map (es, ·) := by
  rw [arguments]
  cases hc : after close ts with
  | some rest =>
    obtain ⟨hl, hs⟩ := skip?_eq_some hc
    rw [hs]; rfl
  | none =>
    rw [skip?_eq_none hc]
    simp only
    cases items source ts with
    | error e => rfl
    | ok p =>
      obtain ⟨es, rest, h⟩ := p
      simp only [reading_ok, Option.bind_some]
      cases hc' : after close rest with
      | none => rw [expect_of_none source hc']; rfl
      | some rest' =>
        obtain ⟨hl', hs'⟩ := expect_of_some source hc'
        rw [hs']; rfl

theorem reading_items (source : String) (ts : List Token) :
    (items source ts).reading =
      (expression source ts).reading.bind fun (e, rest) =>
        match after "," rest with
        | none => some ([e], rest)
        | some rest₁ =>
          (items source rest₁).reading.map fun (es, rest₂) => (e :: es, rest₂) := by
  rw [items]
  cases expression source ts with
  | error e => rfl
  | ok p =>
    obtain ⟨e, rest, h⟩ := p
    simp only [reading_ok, Option.bind_some]
    cases hc : after "," rest with
    | none => rw [skip?_eq_none hc]; rfl
    | some rest₁ =>
      obtain ⟨hl, hs⟩ := skip?_eq_some hc
      rw [hs]
      simp only
      cases items source rest₁ <;> rfl

theorem reading_entries (source : String) (ts : List Token) :
    (entries source ts).reading =
      match after "\x7d" ts with
      | some rest => some ([], rest)
      | none =>
        (pairs source ts).reading.bind fun (ps, rest) => (after "\x7d" rest).map (ps, ·) := by
  rw [entries]
  cases hc : after "\x7d" ts with
  | some rest =>
    obtain ⟨hl, hs⟩ := skip?_eq_some hc
    rw [hs]; rfl
  | none =>
    rw [skip?_eq_none hc]
    simp only
    cases pairs source ts with
    | error e => rfl
    | ok p =>
      obtain ⟨ps, rest, h⟩ := p
      simp only [reading_ok, Option.bind_some]
      cases hc' : after "\x7d" rest with
      | none => rw [expect_of_none source hc']; rfl
      | some rest' =>
        obtain ⟨hl', hs'⟩ := expect_of_some source hc'
        rw [hs']; rfl

theorem reading_pairs (source : String) (ts : List Token) :
    (pairs source ts).reading =
      match ts with
      | [] => none
      | t :: rest =>
        (key? t).bind fun key =>
          (after ":" rest).bind fun rest₁ =>
            (expression source rest₁).reading.bind fun (value, rest₂) =>
              match after "," rest₂ with
              | none => some ([(key, value)], rest₂)
              | some rest₃ =>
                (pairs source rest₃).reading.map fun (ps, rest₄) =>
                  ((key, value) :: ps, rest₄) := by
  rw [pairs.eq_def]
  cases ts with
  | nil => rfl
  | cons t rest =>
    simp only
    cases key? t with
    | none => rfl
    | some key =>
      simp only [Option.bind_some]
      cases hc : after ":" rest with
      | none => rw [expect_of_none source hc]; rfl
      | some rest₁ =>
        obtain ⟨hl, hs⟩ := expect_of_some source hc
        rw [hs]
        simp only [Option.bind_some]
        cases expression source rest₁ with
        | error e => rfl
        | ok p =>
          obtain ⟨value, rest₂, h₂⟩ := p
          simp only [reading_ok, Option.bind_some]
          cases hn : after "," rest₂ with
          | none => rw [skip?_eq_none hn]; rfl
          | some rest₃ =>
            obtain ⟨hl', hs'⟩ := skip?_eq_some hn
            rw [hs']
            simp only
            cases pairs source rest₃ <;> rfl

theorem reading_filterArgs (source : String) (ts : List Token) :
    (filterArgs source ts).reading =
      match after ":" ts with
      | none => some ([], ts)
      | some rest =>
        (expression source rest).reading.bind fun (arg, rest₁) =>
          (filterArgs source rest₁).reading.map fun (args, rest₂) => (arg :: args, rest₂) := by
  rw [filterArgs]
  cases hc : after ":" ts with
  | none => rw [skip?_eq_none hc]; rfl
  | some rest =>
    obtain ⟨hl, hs⟩ := skip?_eq_some hc
    rw [hs]
    simp only
    cases expression source rest with
    | error e => rfl
    | ok p =>
      obtain ⟨arg, rest₁, h₁⟩ := p
      simp only [reading_ok, Option.bind_some]
      cases filterArgs source rest₁ <;> rfl

theorem reading_filterRest (source : String) (input : Expr) (ts : List Token) :
    (filterRest source input ts).reading =
      match after "|" ts with
      | none => some (input, ts)
      | some rest =>
        (name source rest).reading.bind fun (n, rest₁) =>
          (filterArgs source rest₁).reading.bind fun (args, rest₂) =>
            (filterRest source (.filter input n args) rest₂).reading := by
  rw [filterRest]
  cases hc : after "|" ts with
  | none => rw [skip?_eq_none hc]; rfl
  | some rest =>
    obtain ⟨hl, hs⟩ := skip?_eq_some hc
    rw [hs]
    simp only
    cases name source rest with
    | error e => rfl
    | ok p =>
      obtain ⟨n, rest₁, h₁⟩ := p
      simp only [reading_ok, Option.bind_some]
      cases filterArgs source rest₁ with
      | error e => rfl
      | ok p =>
        obtain ⟨args, rest₂, h₂⟩ := p
        simp only [reading_ok, Option.bind_some]
        cases filterRest source (.filter input n args) rest₂ <;> rfl

theorem reading_filtered (source : String) (ts : List Token) :
    (filtered source ts).reading =
      (expression source ts).reading.bind fun (input, rest) =>
        (filterRest source input rest).reading := by
  rw [filtered]
  cases expression source ts with
  | error e => rfl
  | ok p =>
    obtain ⟨input, rest, h⟩ := p
    simp only [reading_ok, Option.bind_some]
    cases filterRest source input rest <;> rfl

/-! ## statements -/

theorem toOption_statements (source : String) (separated : Bool) (t : Token) (tail : List Token) :
    (statements source separated (t :: tail)).toOption =
      if startsWithCloser (t :: tail) then none
      else
        (filtered source (t :: tail)).reading.bind fun (e, rest) =>
          if (separated || startsWith ";" rest) && e.isFilter then none
          else
            (statements source (separated || startsWith ";" rest)
              (skipSemicolons rest)).toOption.map (e :: ·) := by
  rw [statements]
  split
  · rfl
  · cases filtered source (t :: tail) with
    | error e => rfl
    | ok p =>
      obtain ⟨e, rest, h⟩ := p
      simp only [reading_ok, Option.bind_some]
      split
      · rfl
      · cases statements source (separated || startsWith ";" rest) (skipSemicolons rest) <;> rfl

theorem toOption_statements_nil (source : String) (separated : Bool) :
    (statements source separated []).toOption = some [] := by
  rw [statements]
  rfl

theorem toOption_program (source : String) (ts : List Token) :
    (program source ts).toOption =
      (statements source (startsWith ";" ts) (skipSemicolons ts)).toOption.map combine := by
  rw [program]
  cases statements source (startsWith ";" ts) (skipSemicolons ts) <;> rfl

/-! ## what is left is shorter -/

theorem length_of_reading {α : Type} {n : Nat} {x : Outcome α n} {a : α} {rest : List Token}
    (h : x.reading = some (a, rest)) : rest.length < n := by
  cases x with
  | error e => simp at h
  | ok p =>
    simp only [reading_ok, Option.some.injEq, Prod.mk.injEq] at h
    rw [← h.2]
    exact p.shorter

theorem length_of_after {s : String} {ts rest : List Token} (h : after s ts = some rest) :
    rest.length < ts.length := (skip?_eq_some h).1

theorem after_eq_some {s : String} {ts rest : List Token} (h : after s ts = some rest) :
    ∃ t, ts = t :: rest ∧ t.isSpelled s = true := by
  cases ts with
  | nil => simp [after] at h
  | cons t us =>
    simp only [after] at h
    split at h
    · next ht => exact ⟨t, by rw [Option.some.injEq] at h; rw [h], ht⟩
    · simp at h

theorem reading_name_eq_some {source n : String} {ts rest : List Token}
    (h : (name source ts).reading = some (n, rest)) : ∃ t, ts = t :: rest ∧ t.name? = some n := by
  cases ts with
  | nil => simp [name] at h
  | cons t us =>
    rw [reading_name_cons] at h
    obtain ⟨m, hm, he⟩ := Option.map_eq_some_iff.mp h
    simp only [Prod.mk.injEq] at he
    exact ⟨t, by rw [he.2], by rw [hm, he.1]⟩

end TemplateExpr.Grammar
