import TemplateExpr.Number.Arithmetic

/-!
# Binary operators

* `BinOp.symbol`, `BinOp.ofSymbol?`   the spelling of an operator;
* `Precedence`                        the six levels of binary operators;
* `BinOp.admits`                      which orders a relation admits.
-/

namespace TemplateExpr

inductive RelOp where
  | less
  | greater
  | lessEqual
  | greaterEqual
deriving DecidableEq, Repr

inductive BinOp where
  | equal
  | notEqual
  | relation (op : RelOp)
  | arith (op : ArithOp)
  | and
  | or
deriving DecidableEq, Repr

def RelOp.symbol : RelOp → String
  | less => "<"
  | greater => ">"
  | lessEqual => "<="
  | greaterEqual => ">="

def ArithOp.symbol : ArithOp → String
  | add => "+"
  | subtract => "-"
  | multiply => "*"
  | divide => "/"
  | floorDivide => "~/"
  | modulo => "%"

/-- The verb of an operator in messages. -/
def ArithOp.verb : ArithOp → String
  | add => "add"
  | subtract => "subtract"
  | multiply => "multiply"
  | divide | floorDivide => "divide"
  | modulo => "compute modulo of"

def RelOp.admits : RelOp → Ordering → Bool
  | less, o => o == .lt
  | greater, o => o == .gt
  | lessEqual, o => o != .gt
  | greaterEqual, o => o != .lt

namespace BinOp

def symbol : BinOp → String
  | equal => "=="
  | notEqual => "!="
  | relation op => op.symbol
  | arith op => op.symbol
  | and => "&&"
  | or => "||"

/-- An operator that is no relation admits no order. -/
def admits : BinOp → Ordering → Bool
  | relation op, o => op.admits o
  | _, _ => false

end BinOp

/-- The levels of binary operators, the loosest first. -/
inductive Precedence where
  | disjunction
  | conjunction
  | equality
  | relation
  | sum
  | product
deriving DecidableEq, Repr

namespace Precedence

def operators : Precedence → List BinOp
  | disjunction => [.or]
  | conjunction => [.and]
  | equality => [.equal, .notEqual]
  | relation => [.relation .less, .relation .greater, .relation .lessEqual,
      .relation .greaterEqual]
  | sum => [.arith .add, .arith .subtract]
  | product => [.arith .multiply, .arith .modulo, .arith .divide, .arith .floorDivide]

def tighter? : Precedence → Option Precedence
  | disjunction => some conjunction
  | conjunction => some equality
  | equality => some relation
  | relation => some sum
  | sum => some product
  | product => none

/-- How many levels are tighter. -/
def height : Precedence → Nat
  | disjunction => 5
  | conjunction => 4
  | equality => 3
  | relation => 2
  | sum => 1
  | product => 0

def all : List Precedence := [disjunction, conjunction, equality, relation, sum, product]

theorem height_le (p : Precedence) : p.height ≤ 5 := by cases p <;> decide

theorem height_tighter {p q : Precedence} (h : p.tighter? = some q) : q.height < p.height := by
  cases p <;> simp [tighter?] at h <;> subst h <;> decide

end Precedence

def BinOp.ofSymbol? (symbol : String) : Option BinOp :=
  (Precedence.all.flatMap Precedence.operators).find? (·.symbol == symbol)

end TemplateExpr
