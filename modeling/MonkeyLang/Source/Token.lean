import MonkeyLang.Source.Layout

/-!
Tokens, and how a text is cut into them: behind the layout comes the longest token, a whole word, a
whole run of digits, `==`, `!=`, or else a single character. A word that is reserved is a keyword
and never a name.
-/
namespace MonkeyLang

inductive Keyword where
  | letWord | returnWord | fnWord | ifWord | elseWord | trueWord | falseWord
  deriving DecidableEq, Repr

namespace Keyword

def all : List Keyword :=
  [letWord, returnWord, fnWord, ifWord, elseWord, trueWord, falseWord]

def text : Keyword → String
  | letWord => "let"
  | returnWord => "return"
  | fnWord => "fn"
  | ifWord => "if"
  | elseWord => "else"
  | trueWord => "true"
  | falseWord => "false"

def ofBool : Bool → Keyword
  | true => trueWord
  | false => falseWord

theorem mem_all (k : Keyword) : k ∈ all := by cases k <;> decide

end Keyword

inductive Token where
  | keyword (word : Keyword)
  | name (text : String)
  | numeral (digits : String)
  | equal
  | notEqual
  | symbol (char : Char)
  deriving DecidableEq, Repr

namespace Token

def text : Token → String
  | keyword k => k.text
  | name t => t
  | numeral d => d
  | equal => "=="
  | notEqual => "!="
  | symbol c => String.singleton c

def ofWord (word : String) : Token :=
  match Keyword.all.find? (·.text = word) with
  | some k => keyword k
  | none => name word

/-- The longest token of `c :: cs` and what follows it. -/
def next (c : Char) (cs : List Char) : Token × List Char :=
  if isWordStart c then
    (ofWord (String.ofList (c :: cs.takeWhile isWordPart)), cs.dropWhile isWordPart)
  else if c.isDigit then
    (numeral (String.ofList (c :: cs.takeWhile Char.isDigit)), cs.dropWhile Char.isDigit)
  else
    match c, cs with
    | '=', '=' :: rest => (equal, rest)
    | '!', '=' :: rest => (notEqual, rest)
    | c, cs => (symbol c, cs)

theorem length_next_le (c : Char) (cs : List Char) : (next c cs).2.length ≤ cs.length := by
  unfold next
  split
  · exact (List.dropWhile_suffix _).length_le
  split
  · exact (List.dropWhile_suffix _).length_le
  split <;> simp

theorem text_ofWord (word : String) : (ofWord word).text = word := by
  unfold ofWord
  split
  · next h => simpa [text] using List.find?_some h
  · rfl

/-- Taking a token off a text loses nothing. -/
theorem text_next_append (c : Char) (cs : List Char) :
    (next c cs).1.text.toList ++ (next c cs).2 = c :: cs := by
  unfold next
  split
  · simp [text_ofWord, List.takeWhile_append_dropWhile]
  split
  · simp [text, List.takeWhile_append_dropWhile]
  split <;> simp_all [text]

end Token

/-- The tokens of a text. -/
def tokensOf (cs : List Char) : List Token :=
  match _h : (splitLayout cs).2 with
  | [] => []
  | c :: rest => (Token.next c rest).1 :: tokensOf (Token.next c rest).2
termination_by cs.length
decreasing_by
  have hle := length_splitLayout_le cs
  have hnext := Token.length_next_le c rest
  simp only [_h, List.length_cons] at hle
  omega

/-- The number that a run of digits denotes. -/
def numeralValue (digits : List Char) : Nat := Nat.ofDigitChars 10 digits 0

/-- Whether digits denote an integer that is too large for 64 bits with a sign. -/
def isOversized (digits : List Char) : Bool :=
  Nat.pow 2 63 ≤ numeralValue digits

end MonkeyLang
