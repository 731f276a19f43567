import MonkeyLang.Grammar.Rule
import MonkeyLang.Program.Basic

/-!
The four levels of binary operators from the loosest to the tightest, and operators as texts.
-/
namespace MonkeyLang

inductive Level where
  | equality | comparison | sum | product
  deriving DecidableEq, Repr

namespace Level

/-- The level of the operands of a level, unless these are unary expressions. -/
def tighter? : Level → Option Level
  | equality => some comparison
  | comparison => some sum
  | sum => some product
  | product => none

def rank : Level → Nat
  | equality => 1
  | comparison => 2
  | sum => 3
  | product => 4

def rule : Level → Rule
  | equality => .equality
  | comparison => .comparison
  | sum => .sum
  | product => .product

def operatorRule : Level → Rule
  | equality => .equalityOperator
  | comparison => .comparisonOperator
  | sum => .sumOperator
  | product => .productOperator

/-- The operators of a level in the order in which they are tried. -/
def operators : Level → List BinaryOp
  | equality => [.eq, .neq]
  | comparison => [.lt, .gt]
  | sum => [.add, .sub]
  | product => [.mul, .div]

theorem rank_le (l : Level) : l.rank ≤ 4 := by cases l <;> decide

theorem rank_pos (l : Level) : 0 < l.rank := by cases l <;> decide

theorem rank_tighter {a b : Level} (h : a.tighter? = some b) : b.rank = a.rank + 1 := by
  cases a <;> cases h <;> rfl

theorem rank_of_tighter_none {l : Level} (h : l.tighter? = none) : l.rank = 4 := by
  cases l <;> cases h
  rfl

theorem rank_lt_of_ne {a b : Level} (h : a.rank ≤ b.rank) (hne : a ≠ b) : a.rank < b.rank := by
  revert h hne
  cases a <;> cases b <;> decide

end Level

namespace BinaryOp

def level : BinaryOp → Level
  | eq | neq => .equality
  | lt | gt => .comparison
  | add | sub => .sum
  | mul | div => .product

def all : List BinaryOp := [add, sub, mul, div, lt, gt, eq, neq]

def ofText? (text : List Char) : Option BinaryOp := all.find? (·.text.toList = text)

theorem ofText?_text (op : BinaryOp) : ofText? op.text.toList = some op := by cases op <;> rfl

end BinaryOp

namespace UnaryOp

def all : List UnaryOp := [not, neg]

def ofText? (text : List Char) : Option UnaryOp := all.find? (·.text.toList = text)

theorem ofText?_text (op : UnaryOp) : ofText? op.text.toList = some op := by cases op <;> rfl

end UnaryOp
end MonkeyLang
