import MonkeyLang.Grammar.Reader
import MonkeyLang.Parse.Building

/-!
From a text to a program: the grammar cuts the text into pieces, and the program is built from
these. A text that does not follow the grammar is malformed, whatever its integers are, and has an
empty journal.
-/
namespace MonkeyLang

def Expectation.report (e : Expectation) (text : List Char) : SyntaxError :=
  ⟨text, e.position, e.listed⟩

namespace Program

/-- Builds a program from the pieces of a text, of which the first holds all others. -/
def ofPieces : List Piece → Building Program
  | [] => .mismatch
  | root :: _ => do
    let statements ← Piece.toStatements root.inner
    .note (.counted statements.length)
    return ⟨statements⟩

def read (text : List Char) : Building Program :=
  let reading := (Cursor.start text).program
  match reading.outcome with
  | some found => ofPieces found.1
  | none => .fail (.malformed (reading.expected.report text))

def parse (text : String) : Except ParseError Program := (read text.toList).outcome

def journal (text : String) : List Entry := (read text.toList).entries

end Program
end MonkeyLang
