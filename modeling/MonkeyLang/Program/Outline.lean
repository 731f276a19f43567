import MonkeyLang.Program.Basic
import MonkeyLang.Text.Quoted

/-!
The outline of a tree: each node by its name with its parts in parentheses.
-/
namespace MonkeyLang

def UnaryOp.outline : UnaryOp → String
  | not => "Not"
  | neg => "Neg"

def BinaryOp.outline : BinaryOp → String
  | add => "Add"
  | sub => "Sub"
  | mul => "Mul"
  | div => "Div"
  | lt => "Lt"
  | gt => "Gt"
  | eq => "Eq"
  | neq => "Neq"

/-- A list of outlines between square brackets. -/
def bracketed (items : List String) : String := "[" ++ ", ".intercalate items ++ "]"

def blockOutline (statements : List String) : String :=
  "Block \x7b statements: " ++ bracketed statements ++ " \x7d"

mutual

def Expression.outline : Expression → String
  | .name text => "Identifier(" ++ quoted text.toList ++ ")"
  | .integer value => "IntegerLiteral(" ++ toString value.toInt ++ ")"
  | .boolean true => "Boolean(true)"
  | .boolean false => "Boolean(false)"
  | .unary op operand => "Prefix(" ++ op.outline ++ ", " ++ operand.outline ++ ")"
  | .binary left op right =>
      "Infix(" ++ left.outline ++ ", " ++ op.outline ++ ", " ++ right.outline ++ ")"
  | .conditional test yes none =>
      "If(" ++ test.outline ++ ", " ++ blockOutline (statementOutlines yes) ++ ", None)"
  | .conditional test yes (some no) =>
      "If(" ++ test.outline ++ ", " ++ blockOutline (statementOutlines yes) ++ ", Some(" ++
        blockOutline (statementOutlines no) ++ "))"
  | .function params body =>
      "Function(" ++ bracketed (params.map fun p => quoted p.toList) ++ ", " ++
        blockOutline (statementOutlines body) ++ ")"
  | .call callee args =>
      "Call(" ++ callee.outline ++ ", " ++ bracketed (expressionOutlines args) ++ ")"

def Statement.outline : Statement → String
  | .binding name value => "Let(" ++ quoted name.toList ++ ", " ++ value.outline ++ ")"
  | .returning value => "Return(" ++ value.outline ++ ")"
  | .expression value => "Expression(" ++ value.outline ++ ")"

def statementOutlines : List Statement → List String
  | [] => []
  | s :: ss => s.outline :: statementOutlines ss

def expressionOutlines : List Expression → List String
  | [] => []
  | e :: es => e.outline :: expressionOutlines es

end
end MonkeyLang
