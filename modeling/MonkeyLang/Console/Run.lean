import MonkeyLang.Console.Request
import MonkeyLang.Parse.Basic

/-!
What a run of the program writes, and how it ends. The files that a path may name and the standard
input are given; a run reads one file as a program, or without a path each line of the input.
-/
namespace MonkeyLang

abbrev Bytes := List UInt8

/-- What the system says about a failure, with the number that it has for it. -/
def systemMessage (details : String) (code : Nat) : String :=
  details ++ " (os error " ++ toString code ++ ")"

/-- What a path names: a file, or something that fails to be read as the system's message says. -/
inductive Entity where
  | failing (message : String)
  | file (content : Bytes)

def Entity.missing : Entity := failing (systemMessage "No such file or directory" 2)

def Entity.directory : Entity := failing (systemMessage "Is a directory" 21)

structure Output where
  exit : Nat
  stdout : String
  stderr : String
  deriving DecidableEq, Repr

inductive ReadError where
  | system (message : String)
  | notText
  deriving DecidableEq, Repr

def ReadError.message : ReadError → String
  | system message => message
  | notText => "stream did not contain valid UTF-8"

def Bytes.text? (b : Bytes) : Option String := String.fromUTF8? ⟨b.toArray⟩

def Bytes.decode (b : Bytes) : Except ReadError String :=
  match b.text? with
  | some text => .ok text
  | none => .error .notText

def Entity.text : Entity → Except ReadError String
  | failing message => .error (.system message)
  | file content => content.decode

namespace Console

def usage : String := "Usage: monkey [--strict] [path]\n"

def prompt : String := ">> "

inductive Failure where
  | parse (e : ParseError)
  | evaluation (e : EvaluationError)
  deriving DecidableEq, Repr

def Failure.line : Failure → String
  | parse e => "Parsing Error: " ++ e.message ++ "\n"
  | evaluation e => "Runtime Error: " ++ e.message ++ "\n"

theorem Failure.line_cases : (e : Failure) →
    (∃ message, e.line = "Parsing Error: " ++ message) ∨
      ∃ message, e.line = "Runtime Error: " ++ message
  | parse _ => .inl ⟨_, String.append_assoc⟩
  | evaluation _ => .inr ⟨_, String.append_assoc⟩

/-- The line that shows a value; there is none without a value. -/
def valueLine : Option Value → String
  | some value => value.text ++ "\n"
  | none => ""

/-- Reads and evaluates a program. -/
def evaluate (mode : Mode) (text : String) : Except Failure (Option Value) :=
  match Program.parse text with
  | .error e => .error (.parse e)
  | .ok p =>
    match (p.evaluate mode).outcome with
    | .error e => .error (.evaluation e)
    | .ok value => .ok value

/-- The answer to one line of input. -/
def reply (mode : Mode) (line : String) : String :=
  match evaluate mode line with
  | .ok value => valueLine value
  | .error e => e.line

def runFile (mode : Mode) (entity : Entity) : Output :=
  match entity.text with
  | .error e => ⟨1, "", "Ran into error while trying to open the file.\n" ++ e.message ++ "\n"⟩
  | .ok text =>
    match evaluate mode text with
    | .ok value => ⟨0, valueLine value, ""⟩
    | .error e => ⟨1, "", e.line⟩

/-- The lines of an input. A line feed ends a line, together with a carriage return right before
it; what follows the last line feed is a line unless it is empty. -/
def lines : Bytes → List Bytes
  | [] => []
  | 10 :: rest => [] :: lines rest
  | 13 :: 10 :: rest => [] :: lines rest
  | b :: rest =>
    match lines rest with
    | [] => [[b]]
    | line :: more => (b :: line) :: more

/-- What is said about a line that cannot be read. -/
def inputFailure (e : ReadError) : String :=
  "Ran into error while reading input.\n" ++ e.message ++ "\n"

/-- What is said about a line that is no text. -/
def unreadable : String := inputFailure .notText

/-- What comes behind a prompt. -/
inductive Turn where
  | goesOn (answer : String)
  | ends (last : Output)

/-- The turn that the next line makes; there is none at the end of the input. -/
def turn (mode : Mode) : Option (Except ReadError String) → Turn
  | none => .ends ⟨0, "\n", ""⟩
  | some (.error e) => .ends ⟨1, "", inputFailure e⟩
  | some (.ok text) => .goesOn (reply mode text)

/-- What is written from a prompt on, if the turns behind this one write the rest. -/
def Turn.output (rest : Output) : Turn → Output
  | goesOn answer => ⟨rest.exit, prompt ++ answer ++ rest.stdout, rest.stderr⟩
  | ends last => ⟨last.exit, prompt ++ last.stdout, last.stderr⟩

/-- Answers each line after a prompt; the input ends behind one more. -/
def converse (mode : Mode) : List Bytes → Output
  | [] => (turn mode none).output ⟨0, "", ""⟩
  | line :: more => (turn mode (some line.decode)).output (converse mode more)

def perform (files : String → Entity) (stdin : Bytes) : Request → Output
  | .help => ⟨0, usage, ""⟩
  | .unknownOption option => ⟨1, "", "Unknown option " ++ option ++ ".\n" ++ usage⟩
  | .tooManyPaths => ⟨1, "", usage⟩
  | .run mode none => converse mode (lines stdin)
  | .run mode (some path) => runFile mode (files path)

/-- A run with a list of arguments. -/
def run (files : String → Entity) (stdin : Bytes) (args : List String) : Output :=
  perform files stdin (.ofArguments args)

end Console
end MonkeyLang
