import MonkeyLang.Grammar.Rule
import MonkeyLang.Source.Location

/-!
Why a text denotes no program: it does not follow the grammar, or one of its integers is too large
to be held. A text that does not follow the grammar is reported with the place up to which it
could be read and with the rules that could have gone on there. A mismatch means that the pieces of
a text do not have the form that a program is built from.
-/
namespace MonkeyLang

structure SyntaxError where
  text : List Char
  offset : Nat
  expected : List Rule
  deriving DecidableEq, Repr

inductive ParseError where
  | malformed (report : SyntaxError)
  | integerOutOfRange (digits : String)
  | mismatch
  deriving DecidableEq, Repr

/-- Alternatives in a sentence: `a`, `a or b`, `a, b, or c`. -/
def sentenceOf : List String → String
  | [] => ""
  | [a] => a
  | [a, b] => a ++ " or " ++ b
  | a :: b :: c :: rest =>
    ", ".intercalate ((a :: b :: c :: rest).dropLast) ++ ", or " ++ (c :: rest).getLast (by simp)

namespace SyntaxError

def location (e : SyntaxError) : Location := Location.start.advance (e.text.take e.offset)

/-- The blanks that put a mark below a column; a tab stays a tab. -/
def indent (column : Nat) (line : List Char) : List Char :=
  (line.take (column - 1)).map fun c => if c = '\t' then '\t' else ' '

def message (e : SyntaxError) : String :=
  let place := e.location
  let line := lineAround e.text e.offset
  let number := toString place.line
  let margin := "".pushn ' ' number.length
  "\n".intercalate [
    margin ++ "--> " ++ number ++ ":" ++ toString place.column,
    margin ++ " |",
    number ++ " | " ++ String.ofList line,
    margin ++ " | " ++ String.ofList (indent place.column line) ++ "^---",
    margin ++ " |",
    margin ++ " = expected " ++ sentenceOf (e.expected.map Rule.text)]

end SyntaxError

def ParseError.message : ParseError → String
  | malformed report => "Ran into error while parsing\n" ++ report.message
  | integerOutOfRange digits => "Integer literal " ++ digits ++ " does not fit in 64 bits"
  | mismatch => "Critical Error in Language Grammar"

end MonkeyLang
