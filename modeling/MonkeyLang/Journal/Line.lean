import MonkeyLang.Journal.Basic
import MonkeyLang.Program.Outline

/-!
The journal as lines of text.
-/
namespace MonkeyLang

def Role.text : Role → String
  | statement => "Statement"
  | block => "Block"
  | expression => "Expression"
  | integer => "Integer"
  | boolean => "Boolean"
  | identifier => "Identifier"
  | binaryOperator => "Infix Operation"
  | unaryOperator => "Prefix Operation"
  | arguments => "Arguments"

def Entry.line : Entry → String
  | entered role rule text =>
      "INFO Parsing " ++ role.text ++ " " ++ rule.text ++ ": " ++ quoted text
  | completed statement => "INFO Returning Ok(" ++ statement.outline ++ ")"
  | refused => "INFO Returning Err(GrammarError)"
  | counted statements => "INFO Found " ++ toString statements ++ " statements"

end MonkeyLang
