import MonkeyLang.Evaluation

/-!
What the arguments of a command line ask for. They are handled from left to right, and the first
one that asks for help, is no known option, or is a second path decides alone.
-/
namespace MonkeyLang

inductive Request where
  | help
  | unknownOption (option : String)
  | tooManyPaths
  | run (mode : Mode) (path : Option String)
  deriving DecidableEq, Repr

namespace Request

/-- Handles arguments after a mode and a path that the arguments before them have set. -/
def ofArgumentsFrom (mode : Mode) (path : Option String) : List String → Request
  | [] => run mode path
  | arg :: args =>
    if arg = "--strict" then ofArgumentsFrom .strict path args
    else if arg = "-h" ∨ arg = "--help" then help
    else if arg.toList.head? = some '-' then unknownOption arg
    else if path.isSome then tooManyPaths
    else ofArgumentsFrom mode (some arg) args

def ofArguments (args : List String) : Request := ofArgumentsFrom .lenient none args

end Request
end MonkeyLang
