import MonkeyLang.Grammar.Rule
import MonkeyLang.Program.Basic

/-!
The journal of a text: the pieces of the text in the order in which a program is built from them,
each with the role that it has there, and every statement when it is complete.
-/
namespace MonkeyLang

/-- What a piece of a text is read as. -/
inductive Role where
  | statement
  | block
  | expression
  | integer
  | boolean
  | identifier
  | binaryOperator
  | unaryOperator
  | arguments
  deriving DecidableEq, Repr

inductive Entry where
  | entered (role : Role) (rule : Rule) (text : List Char)
  | completed (s : Statement)
  | refused
  | counted (statements : Nat)

end MonkeyLang
