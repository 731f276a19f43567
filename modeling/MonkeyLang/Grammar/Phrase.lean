import MonkeyLang.Grammar.Precedence
import MonkeyLang.Source.Token

/-!
Phrases and clauses: expressions and statements as they are written, with their parentheses, their
digits and their optional semicolons. A phrase has its tokens on one side and the expression that
it denotes on the other.
-/
namespace MonkeyLang

mutual

inductive Phrase where
  | name (text : String)
  | numeral (digits : String)
  | boolean (value : Bool)
  | grouped (inner : Phrase)
  | unary (op : UnaryOp) (operand : Phrase)
  | binary (left : Phrase) (op : BinaryOp) (right : Phrase)
  | conditional (test : Phrase) (yes : List Clause) (no : Option (List Clause))
  | function (params : List String) (body : List Clause)
  | call (callee : Phrase) (args : List Phrase)

inductive Clause where
  | binding (name : String) (value : Phrase) (ended : Bool)
  | returning (value : Phrase) (ended : Bool)
  | expression (value : Phrase) (ended : Bool)

end

/-- The rank of the operator of a binary phrase; unary phrases and calls come above them, and
above these whatever needs no neighbour. -/
def Phrase.precedence : Phrase → Nat
  | .binary _ op _ => op.level.rank
  | .unary _ _ => 5
  | .call _ _ => 6
  | .name _ | .numeral _ | .boolean _ | .grouped _ | .conditional _ _ _ | .function _ _ => 7

/-- Whether a statement has its semicolon. -/
def Clause.ended : Clause → Bool
  | .binding _ _ ended | .returning _ ended | .expression _ ended => ended

def UnaryOp.token : UnaryOp → Token
  | not => .symbol '!'
  | neg => .symbol '-'

def BinaryOp.token : BinaryOp → Token
  | add => .symbol '+'
  | sub => .symbol '-'
  | mul => .symbol '*'
  | div => .symbol '/'
  | lt => .symbol '<'
  | gt => .symbol '>'
  | eq => .equal
  | neq => .notEqual

/-- The tokens of items set apart by commas. -/
def separated : List (List Token) → List Token
  | [] => []
  | [item] => item
  | item :: items => item ++ .symbol ',' :: separated items

/-- The semicolon of a statement, if it is written. -/
def ending (ended : Bool) : List Token := if ended then [.symbol ';'] else []

def parenthesized (inner : List Token) : List Token := .symbol '(' :: inner ++ [.symbol ')']

def braced (inner : List Token) : List Token := .symbol '\x7b' :: inner ++ [.symbol '\x7d']

mutual

def Phrase.tokens : Phrase → List Token
  | .name text => [.name text]
  | .numeral digits => [.numeral digits]
  | .boolean value => [.keyword (.ofBool value)]
  | .grouped inner => parenthesized inner.tokens
  | .unary op operand => op.token :: operand.tokens
  | .binary left op right => left.tokens ++ op.token :: right.tokens
  | .conditional test yes none =>
      .keyword .ifWord :: parenthesized test.tokens ++ braced (clauseTokens yes)
  | .conditional test yes (some no) =>
      .keyword .ifWord :: parenthesized test.tokens ++ braced (clauseTokens yes) ++
        .keyword .elseWord :: braced (clauseTokens no)
  | .function params body =>
      .keyword .fnWord :: parenthesized (separated (params.map ([.name ·]))) ++
        braced (clauseTokens body)
  | .call callee args => callee.tokens ++ parenthesized (separated (phraseTokens args))

def Clause.tokens : Clause → List Token
  | .binding name value ended =>
      .keyword .letWord :: .name name :: .symbol '=' :: value.tokens ++ ending ended
  | .returning value ended => .keyword .returnWord :: value.tokens ++ ending ended
  | .expression value ended => value.tokens ++ ending ended

def clauseTokens : List Clause → List Token
  | [] => []
  | c :: cs => c.tokens ++ clauseTokens cs

def phraseTokens : List Phrase → List (List Token)
  | [] => []
  | p :: ps => p.tokens :: phraseTokens ps

end

mutual

def Phrase.toExpression : Phrase → Expression
  | .name text => .name text
  | .numeral digits => .integer (Int64.ofNat (numeralValue digits.toList))
  | .boolean value => .boolean value
  | .grouped inner => inner.toExpression
  | .unary op operand => .unary op operand.toExpression
  | .binary left op right => .binary left.toExpression op right.toExpression
  | .conditional test yes none => .conditional test.toExpression (toStatements yes) none
  | .conditional test yes (some no) =>
      .conditional test.toExpression (toStatements yes) (some (toStatements no))
  | .function params body => .function params (toStatements body)
  | .call callee args => .call callee.toExpression (toExpressions args)

def Clause.toStatement : Clause → Statement
  | .binding name value _ => .binding name value.toExpression
  | .returning value _ => .returning value.toExpression
  | .expression value _ => .expression value.toExpression

def toStatements : List Clause → List Statement
  | [] => []
  | c :: cs => c.toStatement :: toStatements cs

def toExpressions : List Phrase → List Expression
  | [] => []
  | p :: ps => p.toExpression :: toExpressions ps

end
end MonkeyLang
