import MonkeyLang.Grammar.Precedence
import MonkeyLang.Grammar.Reading
import MonkeyLang.Source.Token

/-!
The grammar. Each rule is a reading at a cursor; alternatives are tried in order, and a repetition
goes on as long as it can. The grammar reads characters: layout may stand between the parts of a
rule and between the items of a repetition, but not inside a word or a number. The layout before an
optional or repeated part is passed even if nothing follows it, the layout before one more item of
a repetition only if the item follows. A repetition always starts behind layout, so it may look for
its first item as it does for the others.

A rule that has read something goes on with less left. A rule that has not may still begin with
another one, so the measure adds to what is left how far a rule stands above those it begins with.
-/
namespace MonkeyLang
namespace Cursor

/-- Reads a word that goes no further than its text. -/
def keyword (rule : Rule) (word : Keyword) (c : Cursor) : Reading c.size :=
  .named rule c ((c.literal word.text).unlessBefore isWordPart)

def integer (c : Cursor) : Reading c.size :=
  .named .integer c (c.run Char.isDigit Char.isDigit)

def boolean (c : Cursor) : Reading c.size :=
  .named .boolean c ((c.oneOf ["true", "false"]).unlessBefore isWordPart)

/-- Whether a reserved word comes next. -/
def atKeyword (c : Cursor) : Bool :=
  ((c.oneOf (Keyword.all.map Keyword.text)).unlessBefore isWordPart).outcome.isSome

def identifier (c : Cursor) : Reading c.size :=
  .named .identifier c (if c.atKeyword then .failure else c.run isWordStart isWordPart)

def operator (l : Level) (c : Cursor) : Reading c.size :=
  .named l.operatorRule c (c.oneOf (l.operators.map BinaryOp.text))

def sign (c : Cursor) : Reading c.size :=
  .named .unaryOperator c (c.oneOf (UnaryOp.all.map UnaryOp.text))

/-- Reads the semicolon of a statement if there is one. -/
def semicolon (c : Cursor) : Reading (c.size + 1) :=
  .orStay c ((c.literal ";").widen (by omega))

def signs (c : Cursor) : Reading (c.size + 1) :=
  .again c fun d _ =>
    d.sign.andMore fun c₁ _ =>
    c₁.signs.widen (by omega)
termination_by c.size

def moreParameters (c : Cursor) : Reading (c.size + 1) :=
  .again c fun d _ =>
    (d.literal ",").andThen fun c₁ _ =>
    c₁.identifier.andMore fun c₂ _ =>
    c₂.moreParameters.widen (by omega)
termination_by c.size

def parameterList (c : Cursor) : Reading (c.size + 1) :=
  .orStay c <|
    c.identifier.andThen fun c₁ _ =>
    c₁.moreParameters.widen (by omega)

def parameters (c : Cursor) : Reading c.size :=
  .named .parameters c <|
    (c.literal "(").andThen fun c₁ _ =>
    c₁.parameterList.andThen fun c₂ _ =>
    (c₂.literal ")").widen (by omega)

mutual

def statements (c : Cursor) : Reading (c.size + 1) :=
  .again c fun d _ =>
    d.statement.andMore fun c₁ _ =>
    c₁.statements.widen (by omega)
termination_by 32 * c.size + 16

def statement (c : Cursor) : Reading c.size :=
  c.letStatement.orElse fun _ =>
  c.returnStatement.orElse fun _ =>
  c.expressionStatement
termination_by 32 * c.size + 15

def letStatement (c : Cursor) : Reading c.size :=
  .named .letStatement c <|
    (c.keyword .letKeyword .letWord).andThen fun c₁ _ =>
    c₁.identifier.andThen fun c₂ _ =>
    (c₂.literal "=").andThen fun c₃ _ =>
    c₃.expression.andThen fun c₄ _ =>
    c₄.semicolon.widen (by omega)
termination_by 32 * c.size + 14

def returnStatement (c : Cursor) : Reading c.size :=
  .named .returnStatement c <|
    (c.keyword .returnKeyword .returnWord).andThen fun c₁ _ =>
    c₁.expression.andThen fun c₂ _ =>
    c₂.semicolon.widen (by omega)
termination_by 32 * c.size + 14

def expressionStatement (c : Cursor) : Reading c.size :=
  .named .expressionStatement c <|
    c.expression.andThen fun c₁ _ =>
    c₁.semicolon.widen (by omega)
termination_by 32 * c.size + 14

def block (c : Cursor) : Reading c.size :=
  .named .block c <|
    (c.literal "\x7b").andThen fun c₁ _ =>
    c₁.statements.andThen fun c₂ _ =>
    (c₂.literal "\x7d").widen (by omega)
termination_by 32 * c.size

def expression (c : Cursor) : Reading c.size :=
  .named .expression c (c.operand .equality)
termination_by 32 * c.size + 13
decreasing_by
  simp only [Level.rank]
  omega

/-- Reads an operand, then operators of the level with their right operands. -/
def operand (l : Level) (c : Cursor) : Reading c.size :=
  .named l.rule c <|
    (c.tighterOperand l).andThen fun c₁ _ =>
    (c₁.moreOperands l).widen (by omega)
termination_by 32 * c.size + 2 * (4 - l.rank) + 6

def tighterOperand (l : Level) (c : Cursor) : Reading c.size :=
  match _h : l.tighter? with
  | some t => c.operand t
  | none => c.unary
termination_by 32 * c.size + 2 * (4 - l.rank) + 5
decreasing_by
  · have := Level.rank_tighter _h
    have := t.rank_le
    omega
  · omega

def moreOperands (l : Level) (c : Cursor) : Reading (c.size + 1) :=
  .again c fun d _ =>
    (d.operator l).andThen fun c₁ _ =>
    (c₁.tighterOperand l).andMore fun c₂ _ =>
    (c₂.moreOperands l).widen (by omega)
termination_by 32 * c.size

def unary (c : Cursor) : Reading c.size :=
  .named .unary c <|
    c.signs.andThen fun c₁ _ =>
    c₁.call.widen (by omega)
termination_by 32 * c.size + 4

def call (c : Cursor) : Reading c.size :=
  .named .call c <|
    c.primary.andThen fun c₁ _ =>
    c₁.moreCalls.widen (by omega)
termination_by 32 * c.size + 2

def moreCalls (c : Cursor) : Reading (c.size + 1) :=
  .again c fun d _ =>
    d.arguments.andMore fun c₁ _ =>
    c₁.moreCalls.widen (by omega)
termination_by 32 * c.size + 1

def arguments (c : Cursor) : Reading c.size :=
  .named .arguments c <|
    (c.literal "(").andThen fun c₁ _ =>
    c₁.argumentList.andThen fun c₂ _ =>
    (c₂.literal ")").widen (by omega)
termination_by 32 * c.size

def argumentList (c : Cursor) : Reading (c.size + 1) :=
  .orStay c <|
    c.expression.andThen fun c₁ _ =>
    c₁.moreArguments.widen (by omega)
termination_by 32 * c.size + 14

def moreArguments (c : Cursor) : Reading (c.size + 1) :=
  .again c fun d _ =>
    (d.literal ",").andThen fun c₁ _ =>
    c₁.expression.andMore fun c₂ _ =>
    c₂.moreArguments.widen (by omega)
termination_by 32 * c.size

def primary (c : Cursor) : Reading c.size :=
  c.integer.orElse fun _ =>
  c.boolean.orElse fun _ =>
  c.functionLiteral.orElse fun _ =>
  c.ifExpression.orElse fun _ =>
  c.identifier.orElse fun _ =>
  c.grouped
termination_by 32 * c.size + 1

def grouped (c : Cursor) : Reading c.size :=
  (c.literal "(").andThen fun c₁ _ =>
  c₁.expression.andThen fun c₂ _ =>
  (c₂.literal ")").widen (by omega)
termination_by 32 * c.size

def functionLiteral (c : Cursor) : Reading c.size :=
  .named .functionLiteral c <|
    (c.keyword .fnKeyword .fnWord).andThen fun c₁ _ =>
    c₁.parameters.andThen fun c₂ _ =>
    c₂.block.widen (by omega)
termination_by 32 * c.size

def ifExpression (c : Cursor) : Reading c.size :=
  .named .ifExpression c <|
    (c.keyword .ifKeyword .ifWord).andThen fun c₁ _ =>
    (c₁.literal "(").andThen fun c₂ _ =>
    c₂.expression.andThen fun c₃ _ =>
    (c₃.literal ")").andThen fun c₄ _ =>
    c₄.block.andThen fun c₅ _ =>
    c₅.alternative.widen (by omega)
termination_by 32 * c.size

def alternative (c : Cursor) : Reading (c.size + 1) :=
  .orStay c <|
    (c.keyword .elseKeyword .elseWord).andThen fun c₁ _ =>
    c₁.block.widen (by omega)
termination_by 32 * c.size

end

def endOfInput (c : Cursor) : Reading (c.size + 1) :=
  .named .endOfInput c <|
    if c.rest.isEmpty then .passed c c.size_lt_succ else .failure

/-- Reads a whole program. -/
def program (c : Cursor) : Reading (c.size + 1) :=
  .named .program c <|
    (Reading.passed c c.size_lt_succ).andThen fun c₁ _ =>
    c₁.statements.andThen fun c₂ _ =>
    c₂.endOfInput.widen (by omega)

end Cursor
end MonkeyLang
