import MonkeyLang.Proofs.Grammar.Soundness

/-!
Which rules are expected where a reading got furthest. A rule that fails at its own start stands for
the alternatives that were tried there, so few rules are ever left behind the place where a program
begins. An expression leaves exactly one rule at its start, which is why the rules above it, that
fail where it does, are never named.
-/
namespace MonkeyLang

/-- The rules that a report can name behind the first place. -/
def Rule.reportable : List Rule :=
  [endOfInput, letStatement, block, unary, call, arguments, parameters, equalityOperator,
    comparisonOperator, sumOperator, productOperator, unaryOperator, identifier, letKeyword,
    returnKeyword, elseKeyword]

/-- The rules that no report names. -/
def Rule.unreportable : List Rule :=
  [expression, equality, comparison, sum, product, returnStatement, expressionStatement,
    ifExpression, functionLiteral, integer, boolean, fnKeyword, ifKeyword]

theorem Rule.not_reportable_of_unreportable : ∀ r ∈ unreportable, r ∉ reportable := by decide

namespace Expectation

/-- Something is expected, and a report can name it. -/
structure Speaks (e : Expectation) : Prop where
  ne_nil : e.rules ≠ []
  reportable : ∀ r ∈ e.rules, r ∈ Rule.reportable

def Reportable (e : Expectation) : Prop := e = empty ∨ e.Speaks

/-- What is expected stands at a place or behind it, and a report can name it. -/
structure Tells (n : Nat) (e : Expectation) : Prop where
  le : n ≤ e.position
  speaks : e.Speaks

/-- Any rules may be expected up to a place, but behind it only those that a report can name. -/
def ClearBehind (n : Nat) (e : Expectation) : Prop := n < e.position → e.Speaks

variable {n m : Nat} {a b e : Expectation} {rule : Rule}

theorem speaks_single (position : Nat) (h : rule ∈ Rule.reportable) : Speaks ⟨position, [rule]⟩ where
  ne_nil := nofun
  reportable _ hr := List.mem_singleton.mp hr ▸ h

theorem reportable_empty : empty.Reportable := .inl rfl

theorem Tells.reportable (h : e.Tells n) : e.Reportable := .inr h.speaks

theorem Tells.mono (h : e.Tells n) (hle : m ≤ n) : e.Tells m := ⟨Nat.le_trans hle h.le, h.speaks⟩

theorem Reportable.clearBehind (h : e.Reportable) (n : Nat) : e.ClearBehind n := by
  intro hlt
  obtain rfl | h := h
  · exact absurd hlt (Nat.not_lt_zero n)
  · exact h

theorem Speaks.append (ha : a.Speaks) (hb : b.Speaks) (position : Nat) :
    Speaks ⟨position, a.rules ++ b.rules⟩ where
  ne_nil := List.append_ne_nil_of_left_ne_nil ha.ne_nil _
  reportable := List.forall_mem_append.mpr ⟨ha.reportable, hb.reportable⟩

theorem Speaks.merge (ha : a.Speaks) (hb : b.Speaks) : (a.merge b).Speaks := by
  unfold Expectation.merge
  split
  · exact hb
  · split
    · exact ha
    · exact ha.append hb _

theorem Tells.merge (ha : a.Tells n) (hb : b.Reportable) : (a.merge b).Tells n := by
  refine ⟨position_merge a b ▸ Nat.le_trans ha.le (Nat.le_max_left _ _), ?_⟩
  obtain rfl | hb := hb
  · rw [merge_empty]
    exact ha.speaks
  · exact ha.speaks.merge hb

theorem Reportable.merge_tells (ha : a.Reportable) (hb : b.Tells n) : (a.merge b).Tells n := by
  refine ⟨position_merge a b ▸ Nat.le_trans hb.le (Nat.le_max_right _ _), ?_⟩
  obtain rfl | ha := ha
  · rw [empty_merge]
    exact hb.speaks
  · exact ha.merge hb.speaks

theorem Reportable.merge (ha : a.Reportable) (hb : b.Reportable) : (a.merge b).Reportable := by
  obtain rfl | hb := hb
  · rwa [merge_empty]
  · exact (ha.merge_tells ⟨Nat.le_refl _, hb⟩).reportable

theorem ClearBehind.merge (ha : a.ClearBehind n) (hb : b.ClearBehind n) :
    (a.merge b).ClearBehind n := by
  unfold Expectation.merge
  split
  · exact hb
  · split
    · exact ha
    · next h₁ h₂ =>
        have heq : a.position = b.position := Nat.le_antisymm (Nat.le_of_not_lt h₂) (Nat.le_of_not_lt h₁)
        exact fun hlt => (ha hlt).append (hb (heq ▸ hlt)) _

/-- What comes behind a place hides what any rules have left before it. -/
theorem ClearBehind.merge_tells (ha : a.ClearBehind n) (hb : b.Tells m) (hlt : n < m) :
    (a.merge b).Tells m := by
  have hle : m ≤ (a.merge b).position :=
    position_merge a b ▸ Nat.le_trans hb.le (Nat.le_max_right _ _)
  exact ⟨hle, ha.merge (hb.reportable.clearBehind n) (Nat.lt_of_lt_of_le hlt hle)⟩

theorem Reportable.failed (h : e.Reportable) (hrule : rule ∈ Rule.reportable) (n : Nat) :
    (failed rule n e).Tells n := by
  refine ⟨position_failed rule n e ▸ Nat.le_max_left _ _, ?_⟩
  unfold Expectation.failed
  split
  · next hlt => exact h.clearBehind n hlt
  · split
    · next hone =>
        obtain rfl | h := h
        · exact absurd hone.2 (by decide)
        · exact h
    · exact speaks_single n hrule

/-- Behind its start, a rule that fails names nothing of its own. -/
theorem ClearBehind.failed (h : e.ClearBehind n) (rule : Rule) :
    (failed rule n e).ClearBehind n := by
  unfold Expectation.failed
  split
  · exact h
  · split
    · exact h
    · exact fun hlt => absurd hlt (Nat.lt_irrefl n)

theorem rules_failed_ne_nil (h : e.ClearBehind n) : (failed rule n e).rules ≠ [] := by
  unfold failed
  split
  · next hlt => exact (h hlt).ne_nil
  · split
    · next hone => exact List.ne_nil_of_length_eq_add_one hone.2
    · nofun

theorem failed_empty (rule : Rule) (n : Nat) : failed rule n empty = ⟨n, [rule]⟩ := by
  simp [failed, empty]

theorem failed_eq_self (h : n < e.position ∨ e.position = n ∧ e.rules.length = 1) :
    failed rule n e = e := by
  unfold failed
  split
  · rfl
  · next hlt => exact if_pos (h.resolve_left hlt)

/-- More than one rule has failed at the start of a rule. -/
theorem failed_eq_single (hposition : e.position = n) (hlength : 2 ≤ e.rules.length) :
    failed rule n e = ⟨n, [rule]⟩ := by
  unfold failed
  rw [if_neg (by omega), if_neg (by omega)]

/-- Rules have failed at one place, and others behind it at most. -/
structure Stacked (n k : Nat) (e : Expectation) : Prop where
  le : n ≤ e.position
  length : e.position = n → k ≤ e.rules.length
  clear : e.ClearBehind n

theorem ClearBehind.stacked_failed (h : e.ClearBehind n) (rule : Rule) :
    Stacked n 1 (Expectation.failed rule n e) where
  le := position_failed rule n e ▸ Nat.le_max_left _ _
  length _ := List.length_pos_iff.mpr (rules_failed_ne_nil h)
  clear := h.failed rule

theorem Tells.stacked (h : e.Tells n) : e.Stacked n 1 where
  le := h.le
  length _ := List.length_pos_iff.mpr h.speaks.ne_nil
  clear _ := h.speaks

theorem Tells.stacked_of_lt (h : e.Tells m) (hlt : n < m) (k : Nat) : e.Stacked n k where
  le := Nat.le_of_lt (Nat.lt_of_lt_of_le hlt h.le)
  length heq := absurd (heq ▸ h.le) (Nat.not_le.mpr hlt)
  clear _ := h.speaks

theorem Stacked.merge {k l : Nat} (ha : a.Stacked n k) (hb : b.Stacked n l) :
    (a.merge b).Stacked n (k + l) := by
  refine ⟨position_merge a b ▸ Nat.le_trans ha.le (Nat.le_max_left _ _), fun heq => ?_,
    ha.clear.merge hb.clear⟩
  have hle := ha.le
  have hle' := hb.le
  rw [position_merge] at heq
  unfold Expectation.merge
  rw [if_neg (by omega), if_neg (by omega), List.length_append]
  exact Nat.add_le_add (ha.length (by omega)) (hb.length (by omega))

theorem Stacked.merge_clear {k : Nat} (ha : a.Stacked n k) (hb : b.ClearBehind n) :
    (a.merge b).Stacked n k := by
  refine ⟨position_merge a b ▸ Nat.le_trans ha.le (Nat.le_max_left _ _), fun heq => ?_,
    ha.clear.merge hb⟩
  have hle := ha.le
  rw [position_merge] at heq
  unfold Expectation.merge
  rw [if_neg (by omega)]
  split
  · exact ha.length (by omega)
  · rw [List.length_append]
    exact Nat.le_trans (ha.length (by omega)) (Nat.le_add_right _ _)

/-- A rule stands for several others that have failed at its start. -/
theorem Stacked.failed {k : Nat} (h : e.Stacked n k) (hk : 2 ≤ k) (hrule : rule ∈ Rule.reportable) :
    (failed rule n e).Tells n := by
  obtain hlt | heq := Nat.lt_or_eq_of_le h.le
  · rw [failed_eq_self (.inl hlt)]
    exact ⟨h.le, h.clear hlt⟩
  · rw [failed_eq_single heq.symm (Nat.le_trans hk (h.length heq.symm))]
    exact ⟨Nat.le_refl n, speaks_single n hrule⟩

end Expectation

namespace Reading

open Expectation

variable {m n k : Nat} {c d : Cursor} {ps : List Piece} {rule : Rule}

theorem expected_andMore_of_none {r : Reading m} {f : (c : Cursor) → c.size < m → Reading n}
    (h : r.outcome = none) : (r.andMore f).expected = r.expected := by
  unfold andMore
  rw [found?_of_outcome_none h]

theorem expected_andMore_of_some {r : Reading m} {f : (c : Cursor) → c.size < m → Reading n}
    (h : r.outcome = some (ps, d)) :
    (r.andMore f).expected = r.expected.merge (f d (size_lt_of_outcome h)).expected := by
  unfold andMore
  rw [found?_of_outcome h]

theorem expected_orElse_of_some {r : Reading n} {s : Unit → Reading n}
    (h : r.outcome = some (ps, d)) : (r.orElse s).expected = r.expected := by
  unfold orElse
  rw [found?_of_outcome h]

theorem expected_orElse_of_none {r : Reading n} {s : Unit → Reading n} (h : r.outcome = none) :
    (r.orElse s).expected = r.expected.merge (s ()).expected := by
  unfold orElse
  rw [found?_of_outcome_none h]

theorem expected_orStay (r : Reading (c.size + 1)) : (r.orStay c).expected = r.expected := by
  cases h : r.outcome with
  | none =>
      rw [orStay, expected_orElse_of_none h]
      exact merge_empty _
  | some x => exact expected_orElse_of_some h

theorem expected_again {f : (d : Cursor) → d.size ≤ c.size → Reading (c.size + 1)} :
    (again c f).expected = (f c.skip c.size_skip_le).expected :=
  expected_orStay _

theorem expected_named_of_some {r : Reading n} (h : r.outcome = some (ps, d)) :
    (named rule c r).expected = r.expected := by
  unfold named
  rw [found?_of_outcome h]

theorem expected_named_of_none {r : Reading n} (h : r.outcome = none) :
    (named rule c r).expected = r.expected.failed rule c.offset := by
  unfold named
  rw [found?_of_outcome_none h]

/-- A rule adds nothing to what has got further than its start. -/
theorem tells_named {r : Reading n} (rule : Rule) (hr : r.expected.Tells k) (hlt : c.offset < k) :
    (named rule c r).expected.Tells k := by
  cases h : r.outcome with
  | none =>
      rw [expected_named_of_none h, failed_eq_self (.inl (Nat.lt_of_lt_of_le hlt hr.le))]
      exact hr
  | some x => rwa [expected_named_of_some h]

theorem expected_unlessBefore (p : Char → Bool) {r : Reading n} (h : r.expected = .empty) :
    (r.unlessBefore p).expected = .empty := by
  unfold unlessBefore
  split
  · split
    · rfl
    · exact h
  · exact h

section Parts

variable {r : Reading m} {f : (c : Cursor) → c.size < m → Reading n}

theorem reportable_andMore (hr : r.expected.Reportable)
    (hf : ∀ ps d, ∀ h : r.outcome = some (ps, d),
      (f d (size_lt_of_outcome h)).expected.Reportable) :
    (r.andMore f).expected.Reportable := by
  cases h : r.outcome with
  | none => rwa [expected_andMore_of_none h]
  | some x =>
      rw [expected_andMore_of_some h]
      exact hr.merge (hf x.1 x.2 h)

theorem clearBehind_andMore (hr : r.expected.ClearBehind k)
    (hf : ∀ ps d, ∀ h : r.outcome = some (ps, d),
      (f d (size_lt_of_outcome h)).expected.ClearBehind k) :
    (r.andMore f).expected.ClearBehind k := by
  cases h : r.outcome with
  | none => rwa [expected_andMore_of_none h]
  | some x =>
      rw [expected_andMore_of_some h]
      exact hr.merge (hf x.1 x.2 h)

theorem reportable_orElse {r : Reading n} {s : Unit → Reading n} (hr : r.expected.Reportable)
    (hs : (s ()).expected.Reportable) : (r.orElse s).expected.Reportable := by
  cases h : r.outcome with
  | none =>
      rw [expected_orElse_of_none h]
      exact hr.merge hs
  | some x => rwa [expected_orElse_of_some h]

theorem clearBehind_orElse {r : Reading n} {s : Unit → Reading n}
    (hr : r.expected.ClearBehind k) (hs : (s ()).expected.ClearBehind k) :
    (r.orElse s).expected.ClearBehind k := by
  cases h : r.outcome with
  | none =>
      rw [expected_orElse_of_none h]
      exact hr.merge hs
  | some x => rwa [expected_orElse_of_some h]

theorem clearBehind_named {r : Reading n} (rule : Rule) (hr : r.expected.ClearBehind c.offset) :
    (named rule c r).expected.ClearBehind c.offset := by
  cases h : r.outcome with
  | none =>
      rw [expected_named_of_none h]
      exact hr.failed rule
  | some x => rwa [expected_named_of_some h]

theorem stacked_named_of_none {r : Reading n} (rule : Rule) (hr : r.expected.ClearBehind c.offset)
    (h : (named rule c r).outcome = none) : (named rule c r).expected.Stacked c.offset 1 := by
  rw [outcome_named, Option.map_eq_none_iff] at h
  rw [expected_named_of_none h]
  exact hr.stacked_failed rule

end Parts

/-- What is expected can be reported, and if the reading fails, there is something to report. -/
structure Reports (c : Cursor) (r : Reading n) : Prop where
  reportable : r.expected.Reportable
  tells (h : r.outcome = none) : r.expected.Tells c.offset

theorem reports_named {r : Reading n} (hrule : rule ∈ Rule.reportable)
    (hr : r.expected.Reportable) : Reports c (named rule c r) := by
  cases h : r.outcome with
  | none =>
      have htells := hr.failed hrule c.offset
      rw [← expected_named_of_none h] at htells
      exact ⟨htells.reportable, fun _ => htells⟩
  | some x =>
      refine ⟨by rwa [expected_named_of_some h], fun hnone => ?_⟩
      rw [outcome_named, h] at hnone
      cases hnone

theorem Reports.orElse {r : Reading n} {s : Unit → Reading n} (h : Reports c r)
    (hs : (s ()).expected.Reportable) : Reports c (r.orElse s) := by
  cases hr : r.outcome with
  | none =>
      have htells := (h.tells hr).merge hs
      rw [← expected_orElse_of_none hr] at htells
      exact ⟨htells.reportable, fun _ => htells⟩
  | some x =>
      refine ⟨by rw [expected_orElse_of_some hr]; exact h.reportable, fun hnone => ?_⟩
      rw [outcome_orElse, hr] at hnone
      cases hnone

/-- What is expected can be reported, and if the reading fails at its own start, this is one rule. -/
structure Leads (c : Cursor) (r : Reading n) : Prop where
  reportable : r.expected.Reportable
  single (h : r.outcome = none) :
    c.offset < r.furthest ∨ r.furthest = c.offset ∧ r.expected.rules.length = 1

/-- A rule is not named if it fails where its first part does. -/
theorem Leads.named {r : Reading n} (h : Leads c r) (rule : Rule) : Leads c (r.named rule c) := by
  cases hr : r.outcome with
  | none =>
      have hself : (r.named rule c).expected = r.expected := by
        rw [expected_named_of_none hr]
        exact failed_eq_self (h.single hr)
      refine ⟨hself ▸ h.reportable, fun _ => ?_⟩
      rw [furthest, hself]
      exact h.single hr
  | some x =>
      refine ⟨by rw [expected_named_of_some hr]; exact h.reportable, fun hnone => ?_⟩
      rw [outcome_named, hr] at hnone
      cases hnone

/-- A reading that fails has left something to report. -/
theorem Leads.tells {r : Reading n} (h : Leads c r) (hnone : r.outcome = none) :
    r.expected.Tells c.offset := by
  have hsingle := h.single hnone
  refine ⟨hsingle.elim Nat.le_of_lt fun heq => Nat.le_of_eq heq.1.symm, ?_⟩
  obtain hempty | hspeaks := h.reportable
  · rw [furthest, hempty] at hsingle
    exact absurd hsingle (by simp [empty])
  · exact hspeaks

theorem leads_named_of_stacked {r : Reading n} (hrule : rule ∈ Rule.reportable)
    (hr : r.expected.Reportable) (hstacked : r.outcome = none → r.expected.Stacked c.offset 2) :
    Leads c (named rule c r) := by
  refine ⟨(reports_named hrule hr).reportable, fun hnone => ?_⟩
  rw [outcome_named, Option.map_eq_none_iff] at hnone
  have h := hstacked hnone
  rw [furthest, expected_named_of_none hnone]
  obtain hlt | heq := Nat.lt_or_eq_of_le h.le
  · rw [failed_eq_self (.inl hlt)]
    exact .inl hlt
  · rw [failed_eq_single heq.symm (h.length heq.symm)]
    exact .inr ⟨rfl, rfl⟩

/-- What follows the first part starts behind it. -/
theorem Leads.andThen {r : Reading m} {f : (c : Cursor) → c.size < m → Reading n} (h : Leads c r)
    (hf : ∀ ps d, ∀ hd : r.outcome = some (ps, d),
      (f d.skip (size_skip_lt_of_outcome hd)).expected.Reportable)
    (hlater : ∀ ps d, ∀ hd : r.outcome = some (ps, d),
      (f d.skip (size_skip_lt_of_outcome hd)).outcome = none →
        c.offset < (f d.skip (size_skip_lt_of_outcome hd)).furthest) : Leads c (r.andThen f) := by
  refine ⟨reportable_andMore h.reportable hf, fun hnone => ?_⟩
  cases hr : r.outcome with
  | none =>
      rw [Reading.andThen, furthest, expected_andMore_of_none hr]
      exact h.single hr
  | some x =>
      have hlt := hlater x.1 x.2 hr (outcome_andThen_eq_none.mp hnone x.1 x.2 hr)
      exact .inl (Nat.lt_of_lt_of_le hlt (le_furthest_andMore hr (Nat.le_refl _)))

theorem Leads.andThen_total {r : Reading m} {f : (c : Cursor) → c.size < m → Reading n}
    (h : Leads c r) (htotal : ∀ d hd, (f d hd).outcome.isSome = true)
    (hf : ∀ d hd, (f d hd).expected.Reportable) : Leads c (r.andThen f) :=
  h.andThen (fun _ _ _ => hf _ _) fun _ _ _ hnone =>
    absurd hnone (Option.isSome_iff_ne_none.mp (htotal _ _))

end Reading
end MonkeyLang
