import MonkeyLang.Program.Node

/-!
Evaluation. Only integers have a value so far, and a program has the value of its last statement.
A node without a rule gives no value in the lenient mode, which goes on; in the strict mode it is
an error, which ends the evaluation. The steps of an evaluation tell which nodes were entered and
which of them had no rule.
-/
namespace MonkeyLang

inductive Mode where
  | lenient | strict
  deriving DecidableEq, Repr

inductive Value where
  | integer (value : Int64)
  deriving DecidableEq, Repr

def Value.typeName : Value → String
  | integer _ => "INTEGER"

def Value.text : Value → String
  | integer value => toString value.toInt

inductive EvaluationError where
  | unsupported (kind : Kind)
  deriving DecidableEq, Repr

def EvaluationError.message : EvaluationError → String
  | unsupported kind => "No evaluation rule for node of kind " ++ kind.text

inductive Step where
  | entered (kind : Kind)
  | passed (kind : Kind)
  deriving DecidableEq, Repr

def Step.line : Step → String
  | entered kind => "TRACE Interpreting " ++ kind.text
  | passed kind => "DEBUG No evaluation rule for " ++ kind.text ++ ", producing no value"

structure Evaluation where
  outcome : Except EvaluationError (Option Value)
  steps : List Step

namespace Evaluation

def entering (kind : Kind) (e : Evaluation) : Evaluation := ⟨e.outcome, .entered kind :: e.steps⟩

def unsupported (kind : Kind) : Mode → Evaluation
  | .lenient => ⟨.ok none, [.passed kind]⟩
  | .strict => ⟨.error (.unsupported kind), []⟩

/-- Goes on with the value of the first evaluation, unless it ended in an error. -/
def andThen (e : Evaluation) (next : Option Value → Evaluation) : Evaluation :=
  match e.outcome with
  | .error x => ⟨.error x, e.steps⟩
  | .ok v =>
    let rest := next v
    ⟨rest.outcome, e.steps ++ rest.steps⟩

end Evaluation

def Expression.evaluate (m : Mode) (e : Expression) : Evaluation :=
  .entering e.kind <|
    match e with
    | .integer value => ⟨.ok (some (.integer value)), []⟩
    | _ => .unsupported e.kind m

def Statement.evaluate (m : Mode) (s : Statement) : Evaluation :=
  .entering s.kind <|
    match s with
    | .expression value => value.evaluate m
    | .binding _ _ | .returning _ => .unsupported s.kind m

/-- Evaluates statements in order, where `last` is the value of the statement before them. -/
def evaluateStatements (m : Mode) (last : Option Value) : List Statement → Evaluation
  | [] => ⟨.ok last, []⟩
  | s :: ss => (s.evaluate m).andThen fun v => evaluateStatements m v ss

def Program.evaluate (m : Mode) (p : Program) : Evaluation :=
  .entering .program (evaluateStatements m none p.statements)

def Node.evaluate (m : Mode) : Node → Evaluation
  | program p => p.evaluate m
  | statement s => s.evaluate m
  | block _ => .entering .block (.unsupported .block m)
  | expression e => e.evaluate m

/-- The value of a node, or none if it has no value. -/
def Node.value? (n : Node) : Option Value :=
  match (n.evaluate .lenient).outcome with
  | .ok v => v
  | .error _ => none

end MonkeyLang
