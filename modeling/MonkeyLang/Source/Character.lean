/-!
The classes of characters that a text is cut by. All of them hold ASCII characters only: a letter
of another script is no part of a word.
-/
namespace MonkeyLang

def isNewline (c : Char) : Bool := c = '\n' || c = '\r'

def isBlank (c : Char) : Bool := c = ' ' || c = '\t' || isNewline c

def isWordStart (c : Char) : Bool := c.isAlpha || c = '_'

def isWordPart (c : Char) : Bool := c.isAlphanum || c = '_'

theorem isWordPart_of_isWordStart {c : Char} (h : isWordStart c) : isWordPart c := by
  simp only [isWordStart, isWordPart, Char.isAlphanum, Bool.or_eq_true] at *
  grind

end MonkeyLang
