/-!
Programs as trees. Parentheses, layout and the optional semicolons of a text leave no trace here,
so a tree that no text can denote (an odd name, a negative integer) is a program too.
-/
namespace MonkeyLang

inductive UnaryOp where
  | not | neg
  deriving DecidableEq, Repr

inductive BinaryOp where
  | add | sub | mul | div | lt | gt | eq | neq
  deriving DecidableEq, Repr

mutual

inductive Expression where
  | name (text : String)
  | integer (value : Int64)
  | boolean (value : Bool)
  | unary (op : UnaryOp) (operand : Expression)
  | binary (left : Expression) (op : BinaryOp) (right : Expression)
  | conditional (test : Expression) (yes : List Statement) (no : Option (List Statement))
  | function (params : List String) (body : List Statement)
  | call (callee : Expression) (args : List Expression)

inductive Statement where
  | binding (name : String) (value : Expression)
  | returning (value : Expression)
  | expression (value : Expression)

end

abbrev Block := List Statement

structure Program where
  statements : List Statement

def UnaryOp.text : UnaryOp → String
  | not => "!"
  | neg => "-"

def BinaryOp.text : BinaryOp → String
  | add => "+"
  | sub => "-"
  | mul => "*"
  | div => "/"
  | lt => "<"
  | gt => ">"
  | eq => "=="
  | neq => "!="

end MonkeyLang
