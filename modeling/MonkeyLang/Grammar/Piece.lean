import MonkeyLang.Grammar.Rule

/-!
Pieces of a text. A piece is what a rule of the grammar has matched, with the pieces that other
rules have matched inside it, from left to right.
-/
namespace MonkeyLang

inductive Piece where
  | mk (rule : Rule) (text : List Char) (inner : List Piece)

namespace Piece

def rule : Piece → Rule
  | mk rule _ _ => rule

def text : Piece → List Char
  | mk _ text _ => text

def inner : Piece → List Piece
  | mk _ _ inner => inner

/-- A keyword only tells where a form begins. -/
def isKeyword (p : Piece) : Bool :=
  match p.rule with
  | .letKeyword | .returnKeyword | .fnKeyword | .ifKeyword | .elseKeyword => true
  | _ => false

/-- The pieces inside that carry a meaning. -/
def significant (p : Piece) : List Piece := p.inner.filter (!·.isKeyword)

theorem sizeOf_inner_lt (p : Piece) : sizeOf p.inner < sizeOf p := by
  cases p
  simp only [inner, mk.sizeOf_spec]
  omega

theorem sizeOf_filter_le (f : Piece → Bool) (ps : List Piece) :
    sizeOf (ps.filter f) ≤ sizeOf ps := by
  induction ps with
  | nil => exact Nat.le_refl _
  | cons p ps ih =>
      rw [List.filter_cons]
      split <;> simp only [List.cons.sizeOf_spec] <;> omega

theorem sizeOf_significant_lt (p : Piece) : sizeOf p.significant < sizeOf p :=
  Nat.lt_of_le_of_lt (sizeOf_filter_le _ _) p.sizeOf_inner_lt

end Piece
end MonkeyLang
