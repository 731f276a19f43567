import MonkeyLang.Source.Character

/-!
Where a place in a text lies for a reader: its line and column, counted from one, and the line
itself. A line feed ends a line, also together with a carriage return before it; a carriage return
alone and a tab are characters like others.
-/
namespace MonkeyLang

structure Location where
  line : Nat
  column : Nat
  deriving DecidableEq, Repr

namespace Location

/-- The location reached from `l` by passing over a text. -/
def advance (l : Location) : List Char → Location
  | [] => l
  | '\r' :: '\n' :: cs => advance ⟨l.line + 1, 1⟩ cs
  | '\n' :: cs => advance ⟨l.line + 1, 1⟩ cs
  | _ :: cs => advance ⟨l.line, l.column + 1⟩ cs

def start : Location := ⟨1, 1⟩

end Location

/-- The line of a text in which an offset lies, without its newline characters. -/
def lineAround (cs : List Char) (offset : Nat) : List Char :=
  let before := ((cs.take offset).reverse.takeWhile (· ≠ '\n')).reverse
  let after := (cs.drop offset).takeWhile (· ≠ '\n')
  (before ++ after).filter (!isNewline ·)

end MonkeyLang
