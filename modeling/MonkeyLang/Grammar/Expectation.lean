import MonkeyLang.Grammar.Rule

/-!
What a reader would have accepted at the furthest place where a rule failed. Findings from several
places combine by keeping the furthest; a rule that fails stands for what failed at its own start,
unless that is exactly one rule, which then says more.
-/
namespace MonkeyLang

structure Expectation where
  position : Nat
  rules : List Rule
  deriving DecidableEq, Repr

namespace Expectation

/-- No rule has failed. -/
def empty : Expectation := ⟨0, []⟩

def merge (a b : Expectation) : Expectation :=
  if a.position < b.position then b
  else if b.position < a.position then a
  else ⟨a.position, a.rules ++ b.rules⟩

/-- What is known after `rule` failed at `position`, where `inside` is what its parts found. -/
def failed (rule : Rule) (position : Nat) (inside : Expectation) : Expectation :=
  if position < inside.position then inside
  else if inside.position = position ∧ inside.rules.length = 1 then inside
  else ⟨position, [rule]⟩

theorem empty_merge (a : Expectation) : merge empty a = a := by
  unfold merge empty
  split
  · rfl
  · next h =>
      have h0 : a.position = 0 := by simpa using h
      cases a
      simp_all

theorem merge_empty (a : Expectation) : merge a empty = a := by
  unfold merge empty
  simp only [Nat.not_lt_zero, ite_false]
  split
  · rfl
  · next h =>
      cases a
      simp

theorem merge_assoc (a b c : Expectation) : merge (merge a b) c = merge a (merge b c) := by
  grind [merge]

theorem position_merge (a b : Expectation) :
    (merge a b).position = max a.position b.position := by
  grind [merge]

theorem position_failed (rule : Rule) (position : Nat) (inside : Expectation) :
    (failed rule position inside).position = max position inside.position := by
  grind [failed]

/-- The rules of a report: each once, in the order of `Rule.all`. -/
def listed (e : Expectation) : List Rule := Rule.all.filter (· ∈ e.rules)

end Expectation
end MonkeyLang
