import MonkeyLang.Proofs.Grammar.Reported
import MonkeyLang.Proofs.Grammar.Viability
import MonkeyLang.Proofs.Lexing.Joining
import MonkeyLang.Proofs.Parse.Outcome

/-!
The place that a report points at. It does not lie before the end of the statements that can be
read from the start, and the text before it can be completed: with a newline and some more text
behind it, that text follows the grammar. A report at the start of a text names the whole program,
every other one some of the rules that stand for what was tried at its place.
-/
namespace MonkeyLang

namespace Cursor

open Reading

/-- Reading a program fails where the statements got furthest, or behind them. -/
theorem furthest_program {c d : Cursor} {ps : List Piece} (h : c.program.outcome = none)
    (hd : c.skip.statements.outcome = some (ps, d)) :
    c.program.furthest = max c.offset (max c.skip.statements.furthest d.skip.offset) := by
  have hend : d.skip.rest ≠ [] := by
    intro hrest
    rw [program_eq_some.mpr ⟨ps, d, hd, hrest, rfl, rfl⟩] at h
    cases h
  have hlast : d.skip.endOfInput.furthest = d.skip.offset := by
    rw [endOfInput, if_neg (by simpa using hend), furthest_named_of_none outcome_failure,
      furthest_failure, Nat.max_zero]
  rw [program, outcome_named, Option.map_eq_none_iff] at h
  rw [program, furthest_named_of_none h, andThen, furthest_andMore_of_some (outcome_passed c _),
    furthest_passed, Nat.zero_max, andThen, furthest_andMore_of_some hd, furthest_widen, hlast]

/-- The text up to a place where the statements of a whole text can be completed. -/
theorem Viable.exists_taken {text : List Char} {n : Nat}
    (h : Viable (start text) IsClauses n) :
    ∃ taken rest, text = taken ++ rest ∧ n = taken.length ∧
      Completable IsClauses (tokensOf taken) := by
  obtain rfl | ⟨ts, hreach, hts⟩ := h
  · refine ⟨[], text, rfl, rfl, ?_⟩
    rw [tokensOf_nil]
    exact .whole isClauses_nil
  · obtain ⟨taken, rest, htext, hoffset, rfl⟩ := hreach.exists_taken
    exact ⟨taken, rest, htext, by rw [hoffset]; exact Nat.zero_add _, hts⟩

theorem viable_program {text : List Char} {d : Cursor} {ps : List Piece}
    (h : (start text).program.outcome = none)
    (hd : (start text).skip.statements.outcome = some (ps, d)) :
    Viable (start text) IsClauses (start text).program.furthest := by
  obtain ⟨cs, hcs, hpasses, -⟩ := statements_sound (soundBelow _) (size_lt_succ _) hd
  have hskip : Passes (start text) [] (start text).skip := .layout (.refl _)
  rw [furthest_program h hd]
  refine at_max viable_zero (at_max ?_ ?_)
  · exact (viable_of_statements (start text).skip).extend hskip fun us hus => .whole hus
  · exact viable_of_passes (hskip.trans hpasses.skip) (.whole ⟨cs, hcs, rfl⟩)

end Cursor

namespace Program

open Cursor

/-- The report of a text that does not follow the grammar. -/
theorem parse_eq_malformed_iff {text : String} {report : SyntaxError} :
    parse text = .error (.malformed report) ↔
      (start text.toList).program.outcome = none ∧
        (start text.toList).program.expected.report text.toList = report := by
  have hparse (h : (start text.toList).program.outcome = none) :
      parse text = .error (.malformed ((start text.toList).program.expected.report text.toList)) := by
    simp only [parse, read, h, Building.outcome_fail]
  constructor
  · intro h
    have hnot := (malformed_iff text).mp ⟨report, h⟩
    rw [Grammatical, Bool.not_eq_true, Option.isSome_eq_false_iff, Option.isNone_iff_eq_none] at hnot
    rw [hparse hnot] at h
    cases h
    exact ⟨hnot, rfl⟩
  · rintro ⟨hnone, rfl⟩
    exact hparse hnone

theorem malformed_offset {text : String} {report : SyntaxError}
    (h : parse text = .error (.malformed report)) :
    report.offset ≤ text.toList.length ∧
    (∃ ps d, (start text.toList).skip.statements.outcome = some (ps, d) ∧
      d.skip.offset ≤ report.offset) ∧
    ∃ rest, Grammatical (String.ofList (text.toList.take report.offset) ++ "\n" ++ rest) := by
  obtain ⟨hnone, rfl⟩ := parse_eq_malformed_iff.mp h
  obtain ⟨⟨ps, d⟩, hd⟩ := Option.isSome_iff_exists.mp (isSome_statements (start text.toList).skip)
  have hfurthest := furthest_program hnone hd
  obtain ⟨taken, rest, htext, hlength, us, hus, cs, hcs, htokens⟩ :=
    (viable_program hnone hd).exists_taken
  have hoffset : ((start text.toList).program.expected.report text.toList).offset =
      taken.length := hlength
  have htake : text.toList.take taken.length = taken := by rw [htext, List.take_left]
  rw [hoffset, htake]
  refine ⟨?_, ⟨ps, d, hd, ?_⟩, spaced us, (grammatical_iff _).mpr ⟨cs, hcs, ?_⟩⟩
  · rw [htext, List.length_append]
    exact Nat.le_add_right _ _
  · rw [← hlength, hfurthest]
    exact Nat.le_trans (Nat.le_max_right _ _) (Nat.le_max_right _ _)
  · have hnewline : ("\n" : String).toList = ['\n'] := rfl
    rw [String.toList_append, String.toList_append, String.toList_ofList, hnewline,
      List.append_assoc, List.singleton_append, tokensOf_append_newline, tokensOf_spaced hus, htokens]

/-- Arguments without an end are given up, and it is their last place that is reported. -/
theorem malformed_offset_arguments :
    parse "f (1, " = .error (.malformed ⟨"f (1, ".toList, 6, [.unary]⟩) ∧ 6 ≤ "f (1, ".toList.length ∧
    (∃ ps d, (start "f (1, ".toList).skip.statements.outcome = some (ps, d) ∧ d.skip.offset ≤ 6) ∧
    ∃ rest, Grammatical (String.ofList ("f (1, ".toList.take 6) ++ "\n" ++ rest) := by
  have hnone : (start "f (1, ".toList).program.outcome.isNone = true := by decide +kernel
  have hexpected : (start "f (1, ".toList).program.expected = ⟨6, [.unary]⟩ := by decide +kernel
  have h : parse "f (1, " = .error (.malformed ⟨"f (1, ".toList, 6, [.unary]⟩) := by
    refine parse_eq_malformed_iff.mpr ⟨Option.isNone_iff_eq_none.mp hnone, ?_⟩
    rw [hexpected]
    rfl
  exact ⟨h, malformed_offset h⟩

theorem mem_expected_report {e : Expectation} {text : List Char} {r : Rule} :
    r ∈ (e.report text).expected ↔ r ∈ e.rules := by
  rw [Expectation.report, Expectation.listed, List.mem_filter, decide_eq_true_iff]
  exact and_iff_right r.mem_all

/-- The rules that a report names. -/
theorem malformed_expected {text : String} {report : SyntaxError}
    (h : parse text = .error (.malformed report)) :
    report.expected ≠ [] ∧ (report.expected = [.program] ↔ report.offset = 0) ∧
    (report.offset ≠ 0 →
      .program ∉ report.expected ∧ ∀ r ∈ report.expected, r ∈ Rule.reportable) ∧
    ∀ r ∈ Rule.unreportable, r ∉ report.expected := by
  obtain ⟨hnone, rfl⟩ := parse_eq_malformed_iff.mp h
  obtain hstart | ⟨hlater, hspeaks⟩ := expected_program hnone
  · have hone : ((start text.toList).program.expected.report text.toList).expected = [.program] := by
      rw [hstart]
      exact (by decide : Expectation.listed ⟨0, [.program]⟩ = [.program])
    have hoffset : ((start text.toList).program.expected.report text.toList).offset = 0 := by
      rw [hstart]
      rfl
    rw [hone, hoffset]
    exact ⟨by decide, by decide, fun hne => absurd rfl hne, by decide⟩
  · have hmem : ∀ r ∈ ((start text.toList).program.expected.report text.toList).expected,
        r ∈ Rule.reportable := fun r hr => hspeaks.reportable r (mem_expected_report.mp hr)
    have hprogram : .program ∉ ((start text.toList).program.expected.report text.toList).expected :=
      fun hr => absurd (hmem .program hr) (by decide)
    refine ⟨?_, ?_, fun _ => ⟨hprogram, hmem⟩, fun r hr hr' => ?_⟩
    · obtain ⟨r, hr⟩ := List.exists_mem_of_ne_nil _ hspeaks.ne_nil
      exact List.ne_nil_of_mem (mem_expected_report.mpr hr)
    · refine iff_of_false (fun heq => ?_) (Nat.ne_of_gt hlater)
      rw [heq] at hprogram
      exact hprogram List.mem_cons_self
    · exact Rule.not_reportable_of_unreportable r hr (hmem r hr')

/-- A signed call is not named behind two signs, as it has got further than its start. -/
theorem malformed_expected_signs :
    parse "!!" = .error (.malformed ⟨"!!".toList, 2, [.call, .unaryOperator]⟩) ∧
    [Rule.call, .unaryOperator] ≠ [] ∧ ([Rule.call, .unaryOperator] = [.program] ↔ 2 = 0) ∧
    (2 ≠ 0 → .program ∉ [Rule.call, .unaryOperator] ∧
      ∀ r ∈ [Rule.call, .unaryOperator], r ∈ Rule.reportable) ∧
    ∀ r ∈ Rule.unreportable, r ∉ [Rule.call, .unaryOperator] := by
  have hnone : (start "!!".toList).program.outcome.isNone = true := by decide +kernel
  have hexpected : (start "!!".toList).program.expected = ⟨2, [.unaryOperator, .call]⟩ := by
    decide +kernel
  have h : parse "!!" = .error (.malformed ⟨"!!".toList, 2, [.call, .unaryOperator]⟩) := by
    refine parse_eq_malformed_iff.mpr ⟨Option.isNone_iff_eq_none.mp hnone, ?_⟩
    rw [hexpected]
    rfl
  exact ⟨h, malformed_expected h⟩

end Program
end MonkeyLang
