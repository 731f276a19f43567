import MonkeyLang.Evaluation
import MonkeyLang.Parse.Basic
import MonkeyLang.Program.Equality

/-!
A session holds a mode and a program, which its steps change and look at. A step that fails leaves
the session as it is.
-/
namespace MonkeyLang

structure Session where
  mode : Mode
  program : Program

namespace Session

def initial : Session := ⟨.lenient, ⟨[]⟩⟩

inductive Command where
  | setMode (mode : Mode)
  | load (text : String)
  | append (text : String)
  | push (s : Statement)
  | pop
  | evaluate (index : Option Nat)
  | render (index : Option Nat)
  | compare (text : String)

inductive Answer where
  | mode (mode : Mode)
  | count (statements : Nat)
  | popped (s : Option Statement)
  | outcome (result : Except EvaluationError (Option Value))
  | program (text : String)
  | statement (text : String) (kind : Kind)
  | missing (index : Nat)
  | equal (same : Bool)
  | rejected (e : ParseError)

def withStatements (s : Session) (statements : List Statement) : Answer × Session :=
  (.count statements.length, ⟨s.mode, ⟨statements⟩⟩)

def run (s : Session) : Command → Answer × Session
  | .setMode mode => (.mode mode, ⟨mode, s.program⟩)
  | .load text =>
    match Program.parse text with
    | .ok p => s.withStatements p.statements
    | .error e => (.rejected e, s)
  | .append text =>
    match Program.parse text with
    | .ok p => s.withStatements (s.program.statements ++ p.statements)
    | .error e => (.rejected e, s)
  | .push statement => s.withStatements (s.program.statements ++ [statement])
  | .pop =>
    (.popped s.program.statements.getLast?, ⟨s.mode, ⟨s.program.statements.dropLast⟩⟩)
  | .evaluate none => (.outcome (s.program.evaluate s.mode).outcome, s)
  | .evaluate (some i) =>
    match s.program.statements[i]? with
    | some statement => (.outcome (statement.evaluate s.mode).outcome, s)
    | none => (.missing i, s)
  | .render none => (.program s.program.render, s)
  | .render (some i) =>
    match s.program.statements[i]? with
    | some statement => (.statement statement.render statement.kind, s)
    | none => (.missing i, s)
  | .compare text =>
    match Program.parse text with
    | .ok p => (.equal (p = s.program), s)
    | .error e => (.rejected e, s)

/-- The answers to a list of commands. -/
def runAll (s : Session) : List Command → List Answer
  | [] => []
  | c :: cs =>
    let next := s.run c
    next.1 :: next.2.runAll cs

end Session
end MonkeyLang
