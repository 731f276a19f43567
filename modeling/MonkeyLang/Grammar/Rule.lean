/-!
The rules of the grammar that a report can name, in the order in which a report lists them.
-/
namespace MonkeyLang

inductive Rule where
  | endOfInput
  | program
  | letStatement
  | returnStatement
  | expressionStatement
  | block
  | expression
  | equality
  | comparison
  | sum
  | product
  | unary
  | call
  | arguments
  | ifExpression
  | functionLiteral
  | parameters
  | equalityOperator
  | comparisonOperator
  | sumOperator
  | productOperator
  | unaryOperator
  | integer
  | boolean
  | identifier
  | letKeyword
  | returnKeyword
  | fnKeyword
  | ifKeyword
  | elseKeyword
  deriving DecidableEq, Repr

namespace Rule

def all : List Rule :=
  [endOfInput, program, letStatement, returnStatement, expressionStatement, block, expression,
    equality, comparison, sum, product, unary, call, arguments, ifExpression, functionLiteral,
    parameters, equalityOperator, comparisonOperator, sumOperator, productOperator, unaryOperator,
    integer, boolean, identifier, letKeyword, returnKeyword, fnKeyword, ifKeyword, elseKeyword]

def text : Rule → String
  | endOfInput => "EOI"
  | program => "program"
  | letStatement => "let_statement"
  | returnStatement => "return_statement"
  | expressionStatement => "expression_statement"
  | block => "block"
  | expression => "expression"
  | equality => "equality"
  | comparison => "comparison"
  | sum => "sum"
  | product => "product"
  | unary => "prefix"
  | call => "call"
  | arguments => "arguments"
  | ifExpression => "if_expression"
  | functionLiteral => "function_literal"
  | parameters => "parameters"
  | equalityOperator => "equality_op"
  | comparisonOperator => "comparison_op"
  | sumOperator => "sum_op"
  | productOperator => "product_op"
  | unaryOperator => "prefix_op"
  | integer => "integer"
  | boolean => "boolean"
  | identifier => "identifier"
  | letKeyword => "kw_let"
  | returnKeyword => "kw_return"
  | fnKeyword => "kw_fn"
  | ifKeyword => "kw_if"
  | elseKeyword => "kw_else"

theorem mem_all (r : Rule) : r ∈ all := by cases r <;> decide

end Rule
end MonkeyLang
