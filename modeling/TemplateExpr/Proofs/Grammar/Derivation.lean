import TemplateExpr.Proofs.Grammar.Reading

/-!
# The grammar

The levels of the grammar as one relation between tokens and the trees they spell. A binary level
is a run of operands grouped to the left, and an access is a primary with members, keys and calls
behind it.

* `Derives φ ts tree`    the tokens are a phrase of the given kind with this tree;
* `Stops marks ts`       the tokens do not start with one of the given spellings;
* `PipelineStops e ts`   the tokens do not go on after the pipeline `e`;
* `begins`               what a phrase can start with;
* `unfiltered`           only a whole pipeline is a filter.

A name before a parenthesis always makes a call of that name: the kinds `access` and `primary`
carry whether the phrase ends in such a name, and only other accesses are called as values.
-/

namespace TemplateExpr

theorem BinOp.symbol_injective {a b : BinOp} (h : a.symbol = b.symbol) : a = b := by
  revert h
  cases a <;> cases b <;> (try rename_i x y; cases x <;> cases y) <;>
    (try rename_i x; cases x) <;> decide

/-- A word of the scanner is a name. -/
def Token.Formed (t : Token) : Prop := t.content = .word → isName t.text.toList = true

namespace Grammar

/-- The kinds of phrases. -/
inductive Phrase where
  | filtered
  /-- The arguments of a filter, each after a colon. -/
  | filterArgs
  | expression
  | conditional
  | binary (p : Precedence)
  | operand (p : Precedence)
  | unary
  /-- `named` if the phrase ends in the name of the scope or of a member. -/
  | access (named : Bool)
  | primary (named : Bool)
  | arguments
  | items
  | entries
  | pairs

@[reducible] def Phrase.Tree : Phrase → Type
  | filterArgs | arguments | items => List Expr
  | entries | pairs => List (String × Expr)
  | _ => Expr

/-- The words that are constants. -/
def reserved : List String := ["null", "undefined", "true", "false"]

inductive Derives : (φ : Phrase) → List Token → φ.Tree → Prop where
  | plain {ts e} : Derives .expression ts e → Derives .filtered ts e
  | pipe {ts us input n args} {bar t : Token} : Derives .filtered ts input → bar.isSpelled "|" →
      t.name? = some n → Derives .filterArgs us args →
      Derives .filtered (ts ++ bar :: t :: us) (.filter input n args)
  | noFilterArgs : Derives .filterArgs [] []
  | filterArg {ts us e es} {colon : Token} : colon.isSpelled ":" → Derives .expression ts e →
      Derives .filterArgs us es → Derives .filterArgs (colon :: (ts ++ us)) (e :: es)
  | value {ts e} : Derives .conditional ts e → Derives .expression ts e
  | assign {ts us target e} {eq : Token} : Derives .conditional ts target →
      target.isAssignable → eq.isSpelled "=" → Derives .expression us e →
      Derives .expression (ts ++ eq :: us) (.assign target e)
  | settled {ts e} : Derives (.binary .disjunction) ts e → Derives .conditional ts e
  | choice {ts us vs c y n} {mark colon : Token} : Derives (.binary .disjunction) ts c →
      mark.isSpelled "?" → Derives .expression us y → colon.isSpelled ":" →
      Derives .expression vs n →
      Derives .conditional (ts ++ mark :: (us ++ colon :: vs)) (.conditional c y n)
  | single {p ts e} : Derives (.operand p) ts e → Derives (.binary p) ts e
  | operation {p ts us l r op} {t : Token} : Derives (.binary p) ts l → op ∈ p.operators →
      t.isSpelled op.symbol → Derives (.operand p) us r →
      Derives (.binary p) (ts ++ t :: us) (.binary op l r)
  | tighter {p q ts e} : p.tighter? = some q → Derives (.binary q) ts e → Derives (.operand p) ts e
  | tightest {p ts e} : p.tighter? = none → Derives .unary ts e → Derives (.operand p) ts e
  | plus {ts e} {t : Token} : t.isSpelled "+" → Derives .unary ts e → Derives .unary (t :: ts) e
  | minus {ts e} {t : Token} : t.isSpelled "-" → Derives .unary ts e →
      Derives .unary (t :: ts) (.binary (.arith .subtract) (.literal (.int 0)) e)
  | not {ts e} {t : Token} : t.isSpelled "!" → Derives .unary ts e →
      Derives .unary (t :: ts) (.not e)
  | unsigned {b ts e} : Derives (.access b) ts e → Derives .unary ts e
  | start {b ts e} : Derives (.primary b) ts e → Derives (.access b) ts e
  | member {b ts e n} {dot t : Token} : Derives (.access b) ts e → dot.isSpelled "." →
      t.name? = some n → Derives (.access true) (ts ++ [dot, t]) (.member e n)
  | callMember {b ts us e n args} {dot t o c : Token} : Derives (.access b) ts e →
      dot.isSpelled "." → t.name? = some n → o.isSpelled "(" → Derives .arguments us args →
      c.isSpelled ")" →
      Derives (.access false) (ts ++ dot :: t :: o :: (us ++ [c])) (.callMember e n args)
  | keyed {b ts us e key} {o c : Token} : Derives (.access b) ts e → o.isSpelled "[" →
      Derives .expression us key → c.isSpelled "]" →
      Derives (.access false) (ts ++ o :: (us ++ [c])) (.keyed e key)
  | callFunction {ts us e args} {o c : Token} : Derives (.access false) ts e → o.isSpelled "(" →
      Derives .arguments us args → c.isSpelled ")" →
      Derives (.access false) (ts ++ o :: (us ++ [c])) (.callFunction e args)
  | group {ts e} {o c : Token} : o.isSpelled "(" → Derives .expression ts e → c.isSpelled ")" →
      Derives (.primary false) (o :: (ts ++ [c])) e
  | null {t : Token} : t.isSpelled "null" ∨ t.isSpelled "undefined" →
      Derives (.primary false) [t] (.literal .null)
  | true {t : Token} : t.isSpelled "true" → Derives (.primary false) [t] (.literal (.bool true))
  | false {t : Token} : t.isSpelled "false" → Derives (.primary false) [t] (.literal (.bool false))
  | array {ts es} {o c : Token} : o.isSpelled "[" → Derives .arguments ts es → c.isSpelled "]" →
      Derives (.primary false) (o :: (ts ++ [c])) (.array es)
  | object {ts ps} {o c : Token} : o.isSpelled "\x7b" → Derives .entries ts ps → c.isSpelled "\x7d" →
      Derives (.primary false) (o :: (ts ++ [c])) (.object (ps.map Prod.fst) (ps.map Prod.snd))
  | scope {t : Token} : t.content = .word → t.text ∉ reserved →
      Derives (.primary true) [t] (.scope t.text)
  | callScope {ts args} {t o c : Token} : t.content = .word → t.text ∉ reserved →
      o.isSpelled "(" → Derives .arguments ts args → c.isSpelled ")" →
      Derives (.primary false) (t :: o :: (ts ++ [c])) (.callScope t.text args)
  | number {n} {t : Token} : t.content = .number n →
      Derives (.primary false) [t] (.literal (.ofNumber n))
  | str {s} {t : Token} : t.content = .str s → Derives (.primary false) [t] (.str s)
  | noArguments : Derives .arguments [] []
  | someArguments {ts es} : Derives .items ts es → Derives .arguments ts es
  | item {ts e} : Derives .expression ts e → Derives .items ts [e]
  | items {ts us e es} {comma : Token} : Derives .expression ts e → comma.isSpelled "," →
      Derives .items us es → Derives .items (ts ++ comma :: us) (e :: es)
  | noEntries : Derives .entries [] []
  | someEntries {ts ps} : Derives .pairs ts ps → Derives .entries ts ps
  | pair {ts key e} {t colon : Token} : key? t = some key → colon.isSpelled ":" →
      Derives .expression ts e → Derives .pairs (t :: colon :: ts) [(key, e)]
  | pairs {ts us key e ps} {t colon comma : Token} : key? t = some key → colon.isSpelled ":" →
      Derives .expression ts e → comma.isSpelled "," → Derives .pairs us ps →
      Derives .pairs (t :: colon :: (ts ++ comma :: us)) ((key, e) :: ps)

/-! ## spellings -/

theorem isSpelled_unique {t : Token} {a b : String} (ha : t.isSpelled a = true)
    (hb : t.isSpelled b = true) : a = b := by
  unfold Token.isSpelled at ha hb
  split at ha <;> simp_all

theorem mem_operators_of_operator? {p : Precedence} {t : Token} {op : BinOp}
    (h : operator? p t = some op) : op ∈ p.operators ∧ t.isSpelled op.symbol = true :=
  ⟨List.mem_of_find?_eq_some h, List.find?_some (p := fun op : BinOp => t.isSpelled op.symbol) h⟩

theorem derives_constant {t : Token} {v : Value} (h : constant? t = some v) :
    Derives (.primary false) [t] (.literal v) := by
  unfold constant? at h
  split at h
  · next hn =>
    rw [Option.some.injEq] at h
    rw [← h]
    exact .null (by simpa using hn)
  · split at h
    · next ht =>
      rw [Option.some.injEq] at h
      rw [← h]
      exact .true ht
    · split at h
      · next hf =>
        rw [Option.some.injEq] at h
        rw [← h]
        exact .false hf
      · simp at h

theorem not_reserved_of_constant? {t : Token} (hw : t.content = .word) (h : constant? t = none) :
    t.text ∉ reserved := by
  unfold constant? at h
  simp only [Token.isSpelled, hw] at h
  simp only [reserved]
  grind

/-! ## where a phrase stops -/

def accessMarks : List String := [".", "[", "("]

def levelMarks (p : Precedence) : List String := p.operators.map BinOp.symbol

def operandMarks (p : Precedence) : List String :=
  accessMarks ++ (Precedence.all.filter (·.height < p.height)).flatMap levelMarks

def conditionalMarks : List String :=
  operandMarks .disjunction ++ levelMarks .disjunction ++ ["?"]

def expressionMarks : List String := conditionalMarks ++ ["="]

def Stops (marks : List String) (ts : List Token) : Prop := ∀ s ∈ marks, after s ts = none

theorem Stops.nil (marks : List String) : Stops marks [] := fun _ _ => rfl

theorem Stops.mono {marks marks' : List String} {ts : List Token} (h : Stops marks' ts)
    (sub : marks ⊆ marks') : Stops marks ts := fun s hs => h s (sub hs)

theorem after_cons_self {s : String} {t : Token} (h : t.isSpelled s = true) (ts : List Token) :
    after s (t :: ts) = some ts := by
  rw [after, if_pos h]

theorem after_cons_of_ne {s s' : String} {t : Token} (h : t.isSpelled s' = true) (ne : s ≠ s')
    (ts : List Token) : after s (t :: ts) = none := by
  rw [after, if_neg]
  intro hs
  exact ne (isSpelled_unique hs h)

theorem Stops.cons {marks : List String} {s : String} {t : Token} (h : t.isSpelled s = true)
    (hs : s ∉ marks) (ts : List Token) : Stops marks (t :: ts) := by
  intro s' hs'
  exact after_cons_of_ne h (fun e => hs (e ▸ hs')) ts

/-! ## what a phrase starts with -/

theorem not_isSpelled_of_word {t : Token} {s : String} (hw : t.content = .word)
    (hf : Token.Formed t) (hs : isName s.toList = false) : ¬ t.isSpelled s = true := by
  intro h
  have ht := hf hw
  unfold Token.isSpelled at h
  rw [hw] at h
  simp only [beq_iff_eq] at h
  rw [h, hs] at ht
  simp at ht

/-- The tokens start with one that has none of the spellings. -/
def StartsUnlike (marks : List String) (ts : List Token) : Prop :=
  ∃ t rest, ts = t :: rest ∧ ∀ s ∈ marks, ¬ t.isSpelled s = true

theorem StartsUnlike.append {marks : List String} {ts : List Token} (h : StartsUnlike marks ts)
    (us : List Token) : StartsUnlike marks (ts ++ us) := by
  obtain ⟨t, rest, rfl, ht⟩ := h
  exact ⟨t, rest ++ us, rfl, ht⟩

theorem StartsUnlike.mono {marks marks' : List String} {ts : List Token}
    (h : StartsUnlike marks' ts) (sub : marks ⊆ marks') : StartsUnlike marks ts := by
  obtain ⟨t, rest, rfl, ht⟩ := h
  exact ⟨t, rest, rfl, fun s hs => ht s (sub hs)⟩

theorem StartsUnlike.after_eq_none {marks : List String} {ts : List Token}
    (h : StartsUnlike marks ts) {s : String} (hs : s ∈ marks) : after s ts = none := by
  obtain ⟨t, rest, rfl, ht⟩ := h
  rw [after, if_neg (ht s hs)]

theorem StartsUnlike.of_isSpelled {marks : List String} {t : Token} {s : String}
    (h : t.isSpelled s = true) (hs : s ∉ marks) (ts : List Token) : StartsUnlike marks (t :: ts) :=
  ⟨t, ts, rfl, fun _ hs' h' => hs (isSpelled_unique h' h ▸ hs')⟩

theorem StartsUnlike.of_word {marks : List String} {t : Token} (hw : t.content = .word)
    (hf : Token.Formed t) (hm : ∀ s ∈ marks, isName s.toList = false) (ts : List Token) :
    StartsUnlike marks (t :: ts) :=
  ⟨t, ts, rfl, fun s hs => not_isSpelled_of_word hw hf (hm s hs)⟩

theorem StartsUnlike.of_literal {marks : List String} {t : Token}
    (h : ∀ s, t.isSpelled s = false) (ts : List Token) : StartsUnlike marks (t :: ts) :=
  ⟨t, ts, rfl, fun s _ => by rw [h s]; simp⟩

def closers : List String := [")", "]", "\x7d", ";"]
def signs : List String := ["+", "-", "!"]

/-- The spellings that a phrase never starts with. -/
def Begins : Phrase → List Token → Prop
  | .filterArgs, _ | .arguments, _ | .entries, _ => True
  | .access _, ts | .primary _, ts => StartsUnlike (closers ++ signs) ts
  | _, ts => StartsUnlike closers ts

theorem begins {φ : Phrase} {ts : List Token} {tree : φ.Tree} (h : Derives φ ts tree)
    (hf : ∀ t ∈ ts, Token.Formed t) : Begins φ ts := by
  induction h with
  | noFilterArgs | noArguments | noEntries => trivial
  | filterArg | someArguments | someEntries => trivial
  | plain _ ih | value _ ih | settled _ ih | single _ ih | start _ ih | item _ ih => exact ih hf
  | tighter _ _ ih | tightest _ _ ih => exact ih hf
  | unsigned _ ih =>
    exact StartsUnlike.mono (ih hf) (by decide)
  | pipe _ _ _ _ ih | assign _ _ _ _ ih | choice _ _ _ _ _ ih | operation _ _ _ _ ih
  | member _ _ _ ih | callMember _ _ _ _ _ _ ih | keyed _ _ _ _ ih | callFunction _ _ _ _ ih
  | items _ _ _ ih =>
    exact StartsUnlike.append (ih fun t ht => hf t (by simp [ht])) _
  | plus hs | minus hs | not hs | group hs | true hs | false hs | array hs | object hs =>
    exact .of_isSpelled hs (by decide) _
  | null hs =>
    rcases hs with hs | hs
    · exact .of_isSpelled hs (by decide) _
    · exact .of_isSpelled hs (by decide) _
  | scope hw | callScope hw => exact .of_word hw (hf _ (by simp)) (by decide) _
  | number hn => exact .of_literal (fun s => by simp [Token.isSpelled, hn]) _
  | str hs => exact .of_literal (fun s => by simp [Token.isSpelled, hs]) _
  | @pair _ _ _ t _ hk | @pairs _ _ _ _ _ t _ _ hk =>
    unfold key? at hk
    split at hk
    · next hc => exact .of_literal (fun s => by simp [Token.isSpelled, hc]) _
    · next hc => exact .of_word hc (hf _ (by simp)) (by decide) _
    · next hc => exact .of_literal (fun s => by simp [Token.isSpelled, hc]) _
    · simp at hk

/-! ## pipelines -/

/-- The tokens do not go on after a pipeline. The name of a filter ends it, unless a colon
follows. -/
def PipelineStops : Expr → List Token → Prop
  | .filter _ _ [], ts => after ":" ts = none
  | .filter _ _ (_ :: _), ts => Stops expressionMarks ts ∧ after ":" ts = none
  | _, ts => Stops expressionMarks ts

theorem pipelineStops_of_not_filter {e : Expr} (h : e.isFilter = false) (ts : List Token) :
    PipelineStops e ts ↔ Stops expressionMarks ts := by
  cases e <;> first | rfl | simp [Expr.isFilter] at h

theorem pipelineStops_filter (input : Expr) (n : String) (args : List Expr) (ts : List Token) :
    PipelineStops (.filter input n args) ts ↔
      (args ≠ [] → Stops expressionMarks ts) ∧ after ":" ts = none := by
  cases args <;> simp [PipelineStops]

theorem PipelineStops.of_stops {ts : List Token} (h : Stops (":" :: expressionMarks) ts)
    (e : Expr) : PipelineStops e ts := by
  have hs : Stops expressionMarks ts := h.mono (List.subset_cons_self _ _)
  cases e with
  | filter input n args => exact (pipelineStops_filter _ _ _ _).mpr ⟨fun _ => hs, h ":" (by simp)⟩
  | _ => exact hs

/-- A pipeline stops before other tokens where none of its marks follows that did not before. -/
theorem PipelineStops.imp {e : Expr} {ts us : List Token} (hs : PipelineStops e ts)
    (h : ∀ s ∈ ":" :: expressionMarks, after s ts = none → after s us = none) :
    PipelineStops e us := by
  have hstops : Stops expressionMarks ts → Stops expressionMarks us :=
    fun hs s hm => h s (List.mem_cons_of_mem _ hm) (hs s hm)
  cases e with
  | filter input n args =>
    obtain ⟨hargs, hcolon⟩ := (pipelineStops_filter _ _ _ _).mp hs
    refine (pipelineStops_filter _ _ _ _).mpr ⟨fun ne => hstops (hargs ne), ?_⟩
    exact h ":" List.mem_cons_self hcolon
  | _ => exact hstops hs

/-- Only a pipeline is a filter. -/
def Unfiltered : (φ : Phrase) → φ.Tree → Prop
  | .filtered, _ | .filterArgs, _ | .arguments, _ | .items, _ | .entries, _ | .pairs, _ => True
  | .expression, e | .conditional, e | .binary _, e | .operand _, e | .unary, e | .access _, e
  | .primary _, e => e.isFilter = false

theorem unfiltered {φ : Phrase} {ts : List Token} {tree : φ.Tree} (h : Derives φ ts tree) :
    Unfiltered φ tree := by
  induction h with
  | plain | pipe | noFilterArgs | filterArg | noArguments | someArguments | item | items
  | noEntries | someEntries | pair | pairs => trivial
  | value _ ih | settled _ ih | single _ ih | tighter _ _ ih | tightest _ _ ih | plus _ _ ih
  | unsigned _ ih | start _ ih | group _ _ _ ih => exact ih
  | _ => rfl

end Grammar

end TemplateExpr
