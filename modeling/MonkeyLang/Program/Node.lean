import MonkeyLang.Program.Render

/-!
The nodes of a program, their kinds, and the order in which a reader meets them: a node comes
before its parts, and the parts come in the order in which they are written.
-/
namespace MonkeyLang

inductive Node where
  | program (p : Program)
  | statement (s : Statement)
  | block (b : Block)
  | expression (e : Expression)

inductive Kind where
  | program
  | letStatement
  | returnStatement
  | expressionStatement
  | block
  | identifier
  | integerLiteral
  | boolean
  | unary
  | binary
  | conditional
  | functionLiteral
  | call
  deriving DecidableEq, Repr

def Kind.text : Kind → String
  | program => "Program"
  | letStatement => "LetStatement"
  | returnStatement => "ReturnStatement"
  | expressionStatement => "ExpressionStatement"
  | block => "Block"
  | identifier => "Identifier"
  | integerLiteral => "IntegerLiteral"
  | boolean => "Boolean"
  | unary => "PrefixExpression"
  | binary => "InfixExpression"
  | conditional => "IfExpression"
  | functionLiteral => "FunctionLiteral"
  | call => "CallExpression"

def Statement.kind : Statement → Kind
  | .binding _ _ => .letStatement
  | .returning _ => .returnStatement
  | .expression _ => .expressionStatement

def Expression.kind : Expression → Kind
  | .name _ => .identifier
  | .integer _ => .integerLiteral
  | .boolean _ => .boolean
  | .unary _ _ => .unary
  | .binary _ _ _ => .binary
  | .conditional _ _ _ => .conditional
  | .function _ _ => .functionLiteral
  | .call _ _ => .call

namespace Node

def kind : Node → Kind
  | program _ => .program
  | statement s => s.kind
  | block _ => .block
  | expression e => e.kind

def render : Node → String
  | program p => p.render
  | statement s => s.render
  | block b => renderBlock b
  | expression e => e.render

end Node

mutual

def Expression.nodes : Expression → List Node
  | .name text => [.expression (.name text)]
  | .integer value => [.expression (.integer value)]
  | .boolean value => [.expression (.boolean value)]
  | .unary op operand => .expression (.unary op operand) :: operand.nodes
  | .binary left op right => .expression (.binary left op right) :: left.nodes ++ right.nodes
  | .conditional test yes none =>
      .expression (.conditional test yes none) :: test.nodes ++ .block yes :: statementNodes yes
  | .conditional test yes (some no) =>
      .expression (.conditional test yes (some no)) :: test.nodes ++
        .block yes :: statementNodes yes ++ .block no :: statementNodes no
  | .function params body =>
      .expression (.function params body) :: .block body :: statementNodes body
  | .call callee args => .expression (.call callee args) :: callee.nodes ++ expressionNodes args

def Statement.nodes : Statement → List Node
  | .binding name value => .statement (.binding name value) :: value.nodes
  | .returning value => .statement (.returning value) :: value.nodes
  | .expression value => .statement (.expression value) :: value.nodes

def statementNodes : List Statement → List Node
  | [] => []
  | s :: ss => s.nodes ++ statementNodes ss

def expressionNodes : List Expression → List Node
  | [] => []
  | e :: es => e.nodes ++ expressionNodes es

end

def Program.nodes (p : Program) : List Node := .program p :: statementNodes p.statements

end MonkeyLang
