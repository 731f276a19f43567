import MonkeyLang.Parse.Basic
import MonkeyLang.Program.Equality
import MonkeyLang.Program.Render

/-!
Reading a text, rendering the program, reading the rendering, and so on. A round tells whether its
program is the one of the round before; an error ends the rounds.
-/
namespace MonkeyLang

structure Round where
  program : Program
  same : Option Bool
  deriving DecidableEq

/-- At most `n` rounds from a text, after a round that gave `before`. -/
def rounds (before : Option Program) (text : String) : (n : Nat) → List (Except ParseError Round)
  | 0 => []
  | n + 1 =>
    match Program.parse text with
    | .error e => [.error e]
    | .ok p => .ok ⟨p, before.map (p = ·)⟩ :: rounds (some p) p.render n

end MonkeyLang
