import TemplateExpr.Proofs.Action
import TemplateExpr.Proofs.Grammar.Reading

/-!
# Reading by place

The grammar once more, for a reader that stands at a place in a list of tokens, looks at the token
there and goes on to the next. Nothing makes its functions end: they call each other, and a budget
says how deep the calls may go. A walk that fails or goes too deep keeps its place.

* `Stop`, `Walk`      why a walk stops, and walks through tokens;
* `Walk.peek`, ...    the steps of a walk;
* `Call`              the functions of the grammar with their arguments;
* `Walk.body`         what a function does, given what the functions that it calls do;
* `Walk.run`          a function with a budget for the depth of its calls.
-/

namespace TemplateExpr.Grammar

/-- Why a walk stops before its end. -/
inductive Stop where
  /-- The calls went deeper than the budget allows. -/
  | tooDeep
  | fault (e : GrammarError)

/-- A walk has a place: how many tokens are behind it. -/
abbrev Walk := EStateM Stop Nat

/-- A function of the grammar. Those that go on after a phrase take its tree. -/
inductive Call where
  | program
  | statements (separated : Bool)
  | semicolons
  | filtered
  | filterRest (input : Expr)
  | filterArgs
  | expression
  | conditional
  | binary (p : Precedence)
  | operand (p : Precedence)
  | binaryRest (p : Precedence) (left : Expr)
  | unary
  | access
  | accessRest (start : Expr)
  | primary
  | arguments (close : String)
  | items
  | entries
  | pairs

@[reducible] def Call.Result : Call → Type
  | statements _ | filterArgs | arguments _ | items => List Expr
  | entries | pairs => List (String × Expr)
  | semicolons => Bool
  | _ => Expr

namespace Walk

variable {α : Type} (source : String) (tokens : List Token)

/-! ## steps -/

def place : Walk Nat := get

def peek : Walk (Option Token) := fun i => .ok tokens[i]? i

/-- Goes on by one token, whether there is one or not. -/
def advance : Walk Unit := fun i => .ok () (i + 1)

def fail (fault : GrammarFault) : Walk α := do
  match ← peek tokens with
  | some t => throw (.fault ⟨fault, .column (t.index + 1), source⟩)
  | none => throw (.fault ⟨fault, .atEnd, source⟩)

def unexpected : Walk α := do
  match ← peek tokens with
  | some t => fail source tokens (.unexpectedToken t.text)
  | none => fail source tokens .unexpectedEnd

def sees (spelling : String) : Walk Bool := do
  return (← peek tokens).any (·.isSpelled spelling)

/-- Goes behind a token if it is spelled as given. -/
def optional (spelling : String) : Walk Bool := do
  if ← sees tokens spelling then
    advance
    return true
  else return false

def expect (spelling : String) : Walk Unit := do
  if ← optional tokens spelling then return ()
  else fail source tokens (.missing spelling)

def name : Walk String := do
  match (← peek tokens).bind Token.name? with
  | some n =>
    advance
    return n
  | none => unexpected source tokens

/-- The source text from a place up to where the walk is. -/
def textSince (start : Nat) : Walk String := do
  return spanText source (tokens.drop start) (tokens.drop (← place))

/-! ## steps at a place -/

section
variable {source tokens} {i : Nat}

theorem place_cases (tokens : List Token) (i : Nat) :
    (tokens[i]? = none ∧ tokens.drop i = []) ∨
      ∃ t, tokens[i]? = some t ∧ tokens.drop i = t :: tokens.drop (i + 1) ∧ i < tokens.length := by
  by_cases hi : i < tokens.length
  · exact .inr ⟨tokens[i], List.getElem?_eq_getElem hi, List.drop_eq_getElem_cons hi, hi⟩
  · rw [Nat.not_lt] at hi
    exact .inl ⟨List.getElem?_eq_none hi, List.drop_eq_nil_of_le hi⟩

theorem sees_apply (s : String) : sees tokens s i = .ok (startsWith s (tokens.drop i)) i := by
  show EStateM.Result.ok (tokens[i]?.any fun t => t.isSpelled s) i = _
  obtain ⟨hpeek, hdrop⟩ | ⟨t, hpeek, hdrop, _⟩ := place_cases tokens i
  · rw [hpeek, hdrop]
    rfl
  · rw [hpeek, hdrop]
    rfl

theorem optional_apply (s : String) :
    optional tokens s i =
      if startsWith s (tokens.drop i) then .ok true (i + 1) else .ok false i := by
  rw [optional, bind_apply, sees_apply]
  cases startsWith s (tokens.drop i) <;> rfl

theorem fail_apply (fault : GrammarFault) :
    (fail source tokens fault : Walk α) i =
      .error (.fault ⟨fault, .ofTokens (tokens.drop i), source⟩) i := by
  rw [fail, bind_apply, peek]
  obtain ⟨hpeek, hdrop⟩ | ⟨t, hpeek, hdrop, _⟩ := place_cases tokens i
  · rw [hpeek, hdrop]
    rfl
  · rw [hpeek, hdrop]
    rfl

theorem expect_apply (s : String) :
    expect source tokens s i =
      if startsWith s (tokens.drop i) then .ok () (i + 1)
      else .error (.fault ⟨.missing s, .ofTokens (tokens.drop i), source⟩) i := by
  rw [expect, bind_apply, optional_apply]
  cases startsWith s (tokens.drop i) with
  | true => rfl
  | false => exact fail_apply _

end

/-! ## functions -/

section
variable (call : (c : Call) → Walk c.Result)

def expression : Walk Expr := do
  let start ← place
  let target ← call .conditional
  if ← sees tokens "=" then
    if target.isAssignable then
      advance
      return .assign target (← call .expression)
    else fail source tokens (.notAssignable (← textSince source tokens start))
  else return target

def conditional : Walk Expr := do
  let start ← place
  let condition ← call (.binary .disjunction)
  if ← optional tokens "?" then
    let yes ← call .expression
    if ← optional tokens ":" then return .conditional condition yes (← call .expression)
    else fail source tokens (.incompleteConditional (← textSince source tokens start))
  else return condition

def binary (p : Precedence) : Walk Expr := do
  call (.binaryRest p (← call (.operand p)))

def operand (p : Precedence) : Walk Expr :=
  match p.tighter? with
  | some q => call (.binary q)
  | none => call .unary

def binaryRest (p : Precedence) (left : Expr) : Walk Expr := do
  match (← peek tokens).bind (operator? p) with
  | some op =>
    advance
    call (.binaryRest p (.binary op left (← call (.operand p))))
  | none => return left

def unary : Walk Expr := do
  if ← optional tokens "+" then call .unary
  else if ← optional tokens "-" then
    return .binary (.arith .subtract) (.literal (.int 0)) (← call .unary)
  else if ← optional tokens "!" then return .not (← call .unary)
  else call .access

def access : Walk Expr := do
  call (.accessRest (← call .primary))

def accessRest (start : Expr) : Walk Expr := do
  if ← optional tokens "." then
    let n ← name source tokens
    if ← optional tokens "(" then
      call (.accessRest (.callMember start n (← call (.arguments ")"))))
    else call (.accessRest (.member start n))
  else if ← optional tokens "[" then
    let key ← call .expression
    expect source tokens "]"
    call (.accessRest (.keyed start key))
  else if ← optional tokens "(" then
    call (.accessRest (.callFunction start (← call (.arguments ")"))))
  else return start

/-- A constant, a literal, a name or the call of one. -/
def atom : Walk Expr := do
  match ← peek tokens with
  | none => unexpected source tokens
  | some t =>
    match constant? t, t.content with
    | some v, _ =>
      advance
      return .literal v
    | none, .number n =>
      advance
      return .literal (.ofNumber n)
    | none, .str s =>
      advance
      return .str s
    | none, .symbol => unexpected source tokens
    | none, .word =>
      advance
      if ← optional tokens "(" then return .callScope t.text (← call (.arguments ")"))
      else return .scope t.text

def primary : Walk Expr := do
  if ← optional tokens "(" then
    let e ← call .expression
    expect source tokens ")"
    return e
  else if ← optional tokens "[" then return .array (← call (.arguments "]"))
  else if ← optional tokens "\x7b" then
    let ps ← call .entries
    return .object (ps.map Prod.fst) (ps.map Prod.snd)
  else atom source tokens call

/-- What stands in brackets: nothing, or what `inside` reads. -/
def bracketed (close : String) (inside : Walk (List α)) : Walk (List α) := do
  if ← optional tokens close then return []
  else
    let xs ← inside
    expect source tokens close
    return xs

def items : Walk (List Expr) := do
  let e ← call .expression
  if ← optional tokens "," then return e :: (← call .items)
  else return [e]

def pairs : Walk (List (String × Expr)) := do
  match (← peek tokens).bind key? with
  | none => unexpected source tokens
  | some key =>
    advance
    expect source tokens ":"
    let value ← call .expression
    if ← optional tokens "," then return (key, value) :: (← call .pairs)
    else return [(key, value)]

def filterArgs : Walk (List Expr) := do
  if ← optional tokens ":" then
    let arg ← call .expression
    return arg :: (← call .filterArgs)
  else return []

def filterRest (input : Expr) : Walk Expr := do
  if ← optional tokens "|" then
    let n ← name source tokens
    call (.filterRest (.filter input n (← call .filterArgs)))
  else return input

def filtered : Walk Expr := do
  call (.filterRest (← call .expression))

/-- Goes behind all semicolons; the answer is whether there was one. -/
def semicolons : Walk Bool := do
  if ← optional tokens ";" then
    let _ ← call .semicolons
    return true
  else return false

def statements (separated : Bool) : Walk (List Expr) := do
  match ← peek tokens with
  | none => return []
  | some t =>
    if startsWithCloser [t] then fail source tokens (.unconsumedToken t.text)
    else
      let e ← call .filtered
      let separated := separated || (← call .semicolons)
      if separated && e.isFilter then fail source tokens .filterInChain
      else return e :: (← call (.statements separated))

def program : Walk Expr := do
  return combine (← call (.statements (← call .semicolons)))

def body : (c : Call) → Walk c.Result
  | .program => program call
  | .statements separated => statements source tokens call separated
  | .semicolons => semicolons tokens call
  | .filtered => filtered call
  | .filterRest input => filterRest source tokens call input
  | .filterArgs => filterArgs tokens call
  | .expression => expression source tokens call
  | .conditional => conditional source tokens call
  | .binary p => binary call p
  | .operand p => operand call p
  | .binaryRest p left => binaryRest tokens call p left
  | .unary => unary tokens call
  | .access => access call
  | .accessRest start => accessRest source tokens call start
  | .primary => primary source tokens call
  | .arguments close => bracketed source tokens close (call .items)
  | .items => items tokens call
  | .entries => bracketed source tokens "\x7d" (call .pairs)
  | .pairs => pairs source tokens call

end

def run : Nat → (c : Call) → Walk c.Result
  | 0, _ => throw .tooDeep
  | budget + 1, c => body source tokens (run budget) c

end Walk

end TemplateExpr.Grammar
