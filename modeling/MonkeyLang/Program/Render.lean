import MonkeyLang.Program.Basic

/-!
The canonical text of a program. Every operator expression is put in parentheses; the condition of
an `if` gets none of its own, and statements follow each other with nothing between them.
-/
namespace MonkeyLang

mutual

def Expression.render : Expression → String
  | .name text => text
  | .integer value => toString value.toInt
  | .boolean true => "true"
  | .boolean false => "false"
  | .unary op operand => "(" ++ op.text ++ operand.render ++ ")"
  | .binary left op right =>
      "(" ++ left.render ++ " " ++ op.text ++ " " ++ right.render ++ ")"
  | .conditional test yes none => "if " ++ test.render ++ " " ++ renderBlock yes
  | .conditional test yes (some no) =>
      "if " ++ test.render ++ " " ++ renderBlock yes ++ " else " ++ renderBlock no
  | .function params body => "fn(" ++ ", ".intercalate params ++ ") " ++ renderBlock body
  | .call callee args => callee.render ++ "(" ++ ", ".intercalate (renderEach args) ++ ")"

def Statement.render : Statement → String
  | .binding name value => "let " ++ name ++ " = " ++ value.render ++ ";"
  | .returning value => "return " ++ value.render ++ ";"
  | .expression value => value.render

def renderStatements : List Statement → String
  | [] => ""
  | s :: ss => s.render ++ renderStatements ss

def renderBlock : List Statement → String
  | [] => "\x7b\x7d"
  | s :: ss => "\x7b " ++ (s.render ++ renderStatements ss) ++ " \x7d"

def renderEach : List Expression → List String
  | [] => []
  | e :: es => e.render :: renderEach es

end

def Program.render (p : Program) : String := renderStatements p.statements

end MonkeyLang
