import MonkeyLang.Source.Character

/-!
Layout: the blanks and comments between tokens. A comment runs from `//` to the end of the line,
that is up to the next newline character or the end of the text.
-/
namespace MonkeyLang

/-- Cuts a text after its leading layout. The flag says whether the text starts inside a comment;
the newline that ends a comment is a blank like any other. -/
def splitLayoutFrom : (inComment : Bool) → List Char → List Char × List Char
  | _, [] => ([], [])
  | true, c :: cs =>
    let (layout, rest) := splitLayoutFrom (!isNewline c) cs
    (c :: layout, rest)
  | false, '/' :: '/' :: cs =>
    let (layout, rest) := splitLayoutFrom true cs
    ('/' :: '/' :: layout, rest)
  | false, c :: cs =>
    if isBlank c then
      let (layout, rest) := splitLayoutFrom false cs
      (c :: layout, rest)
    else
      ([], c :: cs)

def splitLayout : List Char → List Char × List Char := splitLayoutFrom false

theorem splitLayoutFrom_append (inComment : Bool) (cs : List Char) :
    (splitLayoutFrom inComment cs).1 ++ (splitLayoutFrom inComment cs).2 = cs := by
  fun_induction splitLayoutFrom <;> simp_all

theorem splitLayout_append (cs : List Char) :
    (splitLayout cs).1 ++ (splitLayout cs).2 = cs :=
  splitLayoutFrom_append false cs

theorem length_splitLayout_le (cs : List Char) : (splitLayout cs).2.length ≤ cs.length := by
  have h := congrArg List.length (splitLayout_append cs)
  simp only [List.length_append] at h
  omega

end MonkeyLang
