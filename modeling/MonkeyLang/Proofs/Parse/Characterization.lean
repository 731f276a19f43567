import MonkeyLang.Proofs.Grammar.Completeness
import MonkeyLang.Proofs.Parse.Building

/-!
What parsing yields, told by the tokens of a text alone. A text follows the grammar exactly if its
tokens are those of well-formed clauses, and then these clauses are what is built, up to the first
integer that is too large. Pieces never have another form than the one that is looked for.
-/
namespace MonkeyLang
namespace Program

open Cursor

theorem outcome_ofPieces {cs : List Clause} {ps : List Piece} (text ending : List Char)
    (h : Tree (.clauses cs) ps) :
    (ofPieces [.mk .program text (ps ++ [.mk .endOfInput ending []])]).outcome =
      inRange (clauseTokens cs) ⟨toStatements cs⟩ := by
  have hend : (Piece.toStatements [.mk .endOfInput ending []]).outcome = .ok [] := by
    rw [Piece.toStatements, if_pos (by rfl), Piece.toStatements]
    rfl
  have hbuilds := h.builds [.mk .endOfInput ending []]
  simp only [hend, ok_map, List.append_nil] at hbuilds
  simp only [ofPieces, Piece.inner, Building.outcome_bind, Building.outcome_note,
    Building.outcome_pure, hbuilds, ok_bind, bind_assoc]
  exact inRange_bind_ok (clauseTokens cs) (toStatements cs) Program.mk

theorem parse_eq_inRange {cs : List Clause} {text : String} (h : ClausesWellFormed cs)
    (ht : tokensOf text.toList = clauseTokens cs) :
    parse text = inRange (clauseTokens cs) ⟨toStatements cs⟩ := by
  obtain ⟨ps, whole, ending, d, hread, htree⟩ :=
    exists_program h (c := .start text.toList) ht
  simp only [parse, read, hread]
  exact outcome_ofPieces whole ending htree

/-- The clauses that the tokens of a text spell, if there are any. -/
theorem parse_cases (text : String) :
    (∃ report, parse text = .error (.malformed report)) ∧
      (∀ cs, ClausesWellFormed cs → tokensOf text.toList ≠ clauseTokens cs) ∨
    ∃ cs, ClausesWellFormed cs ∧ tokensOf text.toList = clauseTokens cs ∧
      parse text = inRange (clauseTokens cs) ⟨toStatements cs⟩ := by
  cases hread : (Cursor.start text.toList).program.outcome with
  | none =>
      refine .inl ⟨⟨(Cursor.start text.toList).program.expected.report text.toList, ?_⟩, ?_⟩
      · simp only [parse, read, hread, Building.outcome_fail]
      · intro cs hcs ht
        obtain ⟨ps, whole, ending, d, hsome, -⟩ :=
          exists_program hcs (c := .start text.toList) ht
        rw [hread] at hsome
        cases hsome
  | some found =>
      obtain ⟨cs, hcs, ht⟩ := exists_clauses_of_program hread
      exact .inr ⟨cs, hcs, ht, parse_eq_inRange hcs ht⟩

/-- A text has a program if its tokens spell it with integers that are not too large. -/
theorem parse_eq_ok_iff {text : String} {p : Program} :
    parse text = .ok p ↔ ∃ cs, ClausesWellFormed cs ∧ tokensOf text.toList = clauseTokens cs ∧
      firstOversized (clauseTokens cs) = none ∧ ⟨toStatements cs⟩ = p := by
  constructor
  · intro h
    obtain ⟨⟨report, hreport⟩, -⟩ | ⟨cs, hcs, ht, hparse⟩ := parse_cases text
    · rw [hreport] at h
      cases h
    · exact ⟨cs, hcs, ht, inRange_eq_ok_iff.mp (hparse.symm.trans h)⟩
  · rintro ⟨cs, hcs, ht, hfits, rfl⟩
    rw [parse_eq_inRange hcs ht, inRange_of_none hfits]

/-- Layout makes no difference. -/
theorem parse_eq_of_tokensOf_eq (a b : String) (h : tokensOf a.toList = tokensOf b.toList) :
    (∃ r s, parse a = .error (.malformed r) ∧ parse b = .error (.malformed s)) ∨
    (∃ digits, parse a = .error (.integerOutOfRange digits) ∧
      parse b = .error (.integerOutOfRange digits)) ∨
    ∃ p, parse a = .ok p ∧ parse b = .ok p := by
  obtain ⟨⟨r, hr⟩, ha⟩ | ⟨cs, hcs, ha, hparse⟩ := parse_cases a
  · obtain ⟨⟨s, hs⟩, -⟩ | ⟨cs, hcs, hb, -⟩ := parse_cases b
    · exact .inl ⟨r, s, hr, hs⟩
    · exact absurd (h.trans hb) (ha cs hcs)
  · have hparse' := parse_eq_inRange hcs (h.symm.trans ha)
    rw [hparse, hparse', inRange]
    split
    · exact .inr (.inl ⟨_, rfl, rfl⟩)
    · exact .inr (.inr ⟨_, rfl, rfl⟩)

theorem parse_eq_of_tokensOf_eq_spaced :
    tokensOf "let a=1".toList = tokensOf "let a = 1 // one".toList ∧
      ((∃ r s, parse "let a=1" = .error (.malformed r) ∧
          parse "let a = 1 // one" = .error (.malformed s)) ∨
        (∃ digits, parse "let a=1" = .error (.integerOutOfRange digits) ∧
          parse "let a = 1 // one" = .error (.integerOutOfRange digits)) ∨
        ∃ p, parse "let a=1" = .ok p ∧ parse "let a = 1 // one" = .ok p) := by
  have h : tokensOf "let a=1".toList = tokensOf "let a = 1 // one".toList := by decide +kernel
  exact ⟨h, parse_eq_of_tokensOf_eq _ _ h⟩

end Program
end MonkeyLang
