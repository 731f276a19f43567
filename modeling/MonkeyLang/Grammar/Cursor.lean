import MonkeyLang.Source.Layout

/-!
Cursors: places in a text, each with what is left of the text there. A cursor only moves forward.
-/
namespace MonkeyLang

/-- The number of characters passed, and those that are left. -/
structure Cursor where
  offset : Nat
  rest : List Char
  deriving DecidableEq, Repr

namespace Cursor

def start (text : List Char) : Cursor := ⟨0, text⟩

def size (c : Cursor) : Nat := c.rest.length

def advance (n : Nat) (c : Cursor) : Cursor := ⟨c.offset + n, c.rest.drop n⟩

/-- The place behind the layout. -/
def skip (c : Cursor) : Cursor := c.advance (splitLayout c.rest).1.length

/-- The text between two places. -/
def upTo (c d : Cursor) : List Char := c.rest.take (d.offset - c.offset)

theorem rest_skip (c : Cursor) : c.skip.rest = (splitLayout c.rest).2 := by
  have h := congrArg (List.drop (splitLayout c.rest).1.length) (splitLayout_append c.rest)
  simpa [skip, advance] using h.symm

theorem size_skip_le (c : Cursor) : c.skip.size ≤ c.size := by
  simpa only [size, rest_skip] using length_splitLayout_le c.rest

theorem size_lt_succ (c : Cursor) : c.size < c.size + 1 := Nat.lt_succ_self c.size

theorem size_advance_lt {c : Cursor} {n : Nat} (hn : 0 < n) (hc : 0 < c.size) :
    (c.advance n).size < c.size := by
  simp only [size, advance, List.length_drop] at *
  omega

end Cursor
end MonkeyLang
