import MonkeyLang.Grammar.Piece
import MonkeyLang.Grammar.Precedence
import MonkeyLang.Journal.Basic
import MonkeyLang.Parse.Error
import MonkeyLang.Source.Token

/-!
Building a program from the pieces of a text. Each piece is entered in the journal before anything
is built from it. The first error ends the building, and what is open then stays open.
-/
namespace MonkeyLang

structure Building (α : Type) where
  outcome : Except ParseError α
  entries : List Entry

namespace Building

variable {α β : Type}

instance : Monad Building where
  pure a := ⟨.ok a, []⟩
  bind b f :=
    match b.outcome with
    | .error e => ⟨.error e, b.entries⟩
    | .ok a => ⟨(f a).outcome, b.entries ++ (f a).entries⟩

def fail (e : ParseError) : Building α := ⟨.error e, []⟩

/-- The pieces do not have the form that is looked for. -/
def mismatch : Building α := fail .mismatch

def note (e : Entry) : Building Unit := ⟨.ok (), [e]⟩

@[simp] theorem outcome_pure (a : α) : (pure a : Building α).outcome = .ok a := rfl

@[simp] theorem outcome_fail (e : ParseError) : (fail e : Building α).outcome = .error e := rfl

@[simp] theorem outcome_note (e : Entry) : (note e).outcome = .ok () := rfl

@[simp] theorem outcome_bind (b : Building α) (f : α → Building β) :
    (b >>= f).outcome = b.outcome >>= fun a => (f a).outcome := by
  change Building.outcome (match b.outcome with
    | .error e => ⟨.error e, b.entries⟩
    | .ok a => ⟨(f a).outcome, b.entries ++ (f a).entries⟩) = _
  cases b.outcome <;> rfl

@[simp] theorem outcome_map (f : α → β) (b : Building α) :
    (f <$> b).outcome = f <$> b.outcome := by
  change (b >>= pure ∘ f).outcome = _
  rw [outcome_bind]
  cases b.outcome <;> rfl

end Building

namespace Piece

def enter (role : Role) (p : Piece) : Building Unit := .note (.entered role p.rule p.text)

def toIdentifier (p : Piece) : Building String := do
  p.enter .identifier
  match p.rule with
  | .identifier => pure (String.ofList p.text)
  | _ => .mismatch

def toIdentifiers : List Piece → Building (List String)
  | [] => pure []
  | p :: ps => return (← p.toIdentifier) :: (← toIdentifiers ps)

def toBinaryOp (p : Piece) : Building BinaryOp := do
  p.enter .binaryOperator
  match BinaryOp.ofText? p.text with
  | some op => pure op
  | none => .mismatch

def toUnaryOp (p : Piece) : Building UnaryOp := do
  p.enter .unaryOperator
  match UnaryOp.ofText? p.text with
  | some op => pure op
  | none => .mismatch

def toInteger (p : Piece) : Building Int64 := do
  p.enter .integer
  if isOversized p.text then .fail (.integerOutOfRange (String.ofList p.text))
  else pure (Int64.ofNat (numeralValue p.text))

def toBoolean (p : Piece) : Building Bool := do
  p.enter .boolean
  if p.text = "true".toList then pure true
  else if p.text = "false".toList then pure false
  else .mismatch

mutual

/-- The statements among some pieces; the end of the input is none. -/
def toStatements : List Piece → Building (List Statement)
  | [] => pure []
  | p :: ps => do
    let first ← if p.rule = .endOfInput then pure [] else List.singleton <$> p.toStatement
    return first ++ (← toStatements ps)
termination_by ps => sizeOf ps

def toStatement (p : Piece) : Building Statement := do
  p.enter .statement
  let s ←
    match p.rule with
    | .letStatement => toBinding p.significant
    | .returnStatement => Statement.returning <$> firstToExpression p.significant
    | .expressionStatement => Statement.expression <$> firstToExpression p.inner
    | _ => do
      .note .refused
      .mismatch
  .note (.completed s)
  return s
termination_by sizeOf p
decreasing_by
  all_goals first | exact p.sizeOf_inner_lt | exact p.sizeOf_significant_lt

/-- A name and the value that is bound to it. -/
def toBinding : List Piece → Building Statement
  | [] => .mismatch
  | name :: more => return .binding (← name.toIdentifier) (← firstToExpression more)
termination_by ps => sizeOf ps

def toBlock (p : Piece) : Building Block := do
  p.enter .block
  match p.rule with
  | .block => toStatements p.inner
  | _ => .mismatch
termination_by sizeOf p
decreasing_by exact p.sizeOf_inner_lt

def firstToBlock : List Piece → Building Block
  | [] => .mismatch
  | p :: _ => p.toBlock
termination_by ps => sizeOf ps

def toExpression (p : Piece) : Building Expression := do
  p.enter .expression
  match p.rule with
  | .expression => firstToExpression p.inner
  | .equality | .comparison | .sum | .product => toOperation p.inner
  | .unary => toSigned [] none p.inner
  | .call => toCall p.inner
  | .ifExpression => toConditional p.significant
  | .functionLiteral => toFunction p.significant
  | .integer => Expression.integer <$> p.toInteger
  | .boolean => Expression.boolean <$> p.toBoolean
  | .identifier => Expression.name <$> p.toIdentifier
  | _ => .mismatch
termination_by sizeOf p
decreasing_by
  all_goals first | exact p.sizeOf_inner_lt | exact p.sizeOf_significant_lt

def firstToExpression : List Piece → Building Expression
  | [] => .mismatch
  | p :: _ => p.toExpression
termination_by ps => sizeOf ps

/-- An operand, and then operators with their right operands. -/
def toOperation : List Piece → Building Expression
  | [] => .mismatch
  | left :: more => do toOperands (← left.toExpression) more
termination_by ps => sizeOf ps

def toOperands (left : Expression) : List Piece → Building Expression
  | [] => pure left
  | op :: more => do
    let op ← op.toBinaryOp
    match more with
    | [] => .mismatch
    | right :: more => do toOperands (.binary left op (← right.toExpression)) more
termination_by ps => sizeOf ps

/-- Unary operators and an operand. The operator written last takes the operand first. -/
def toSigned (ops : List UnaryOp) (operand : Option Expression) : List Piece → Building Expression
  | [] =>
    match operand with
    | some e => pure (ops.foldr .unary e)
    | none => .mismatch
  | p :: ps =>
    if p.rule = .unaryOperator then do toSigned (ops ++ [← p.toUnaryOp]) operand ps
    else do toSigned ops (some (← p.toExpression)) ps
termination_by ps => sizeOf ps

/-- A callee, and then lists of arguments. -/
def toCall : List Piece → Building Expression
  | [] => .mismatch
  | callee :: more => do toCalls (← callee.toExpression) more
termination_by ps => sizeOf ps

def toCalls (callee : Expression) : List Piece → Building Expression
  | [] => pure callee
  | args :: more => do
    args.enter .arguments
    toCalls (.call callee (← toExpressions args.inner)) more
termination_by ps => sizeOf ps
decreasing_by
  · exact Nat.lt_trans args.sizeOf_inner_lt (List.sizeOf_lt_of_mem List.mem_cons_self)
  · decreasing_tactic

def toExpressions : List Piece → Building (List Expression)
  | [] => pure []
  | p :: ps => return (← p.toExpression) :: (← toExpressions ps)
termination_by ps => sizeOf ps

def toConditional : List Piece → Building Expression
  | [] => .mismatch
  | test :: more => do toBranches (← test.toExpression) more
termination_by ps => sizeOf ps

def toBranches (test : Expression) : List Piece → Building Expression
  | [] => .mismatch
  | [yes] => return .conditional test (← yes.toBlock) none
  | yes :: no :: _ => return .conditional test (← yes.toBlock) (some (← no.toBlock))
termination_by ps => sizeOf ps

def toFunction : List Piece → Building Expression
  | [] => .mismatch
  | params :: more =>
    return .function (← toIdentifiers params.inner) (← firstToBlock more)
termination_by ps => sizeOf ps

end

end Piece
end MonkeyLang
