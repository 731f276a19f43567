import MonkeyLang.Proofs.Grammar.Choice

/-!
How far a reading got. A reading tells the furthest place where a rule failed, also on the ways
that it gave up. What holds of that place is shown combinator by combinator, as it is the place of
one of the parts.
-/
namespace MonkeyLang
namespace Reading

variable {m n : Nat} {c d : Cursor} {ps : List Piece}

/-- The furthest place where a rule failed, or 0 if none did. -/
def furthest (r : Reading n) : Nat := r.expected.position

theorem furthest_failure : (failure : Reading n).furthest = 0 := rfl

theorem furthest_passed (c : Cursor) (h : c.size < n) : (passed c h).furthest = 0 := rfl

theorem furthest_widen (h : m ≤ n) (r : Reading m) : (r.widen h).furthest = r.furthest := rfl

theorem found?_of_outcome {r : Reading n} (h : r.outcome = some (ps, d)) :
    r.found? = some ⟨ps, d, size_lt_of_outcome h⟩ := by
  obtain ⟨x, hx, heq⟩ := Option.map_eq_some_iff.mp h
  cases heq
  exact hx

theorem found?_of_outcome_none {r : Reading n} (h : r.outcome = none) : r.found? = none :=
  Option.map_eq_none_iff.mp h

theorem furthest_unlessBefore (p : Char → Bool) {r : Reading n} (h : r.furthest = 0) :
    (r.unlessBefore p).furthest = 0 := by
  unfold unlessBefore
  split
  · split
    · rfl
    · exact h
  · exact h

theorem furthest_andMore_of_none {r : Reading m} {f : (c : Cursor) → c.size < m → Reading n}
    (h : r.outcome = none) : (r.andMore f).furthest = r.furthest := by
  unfold andMore
  rw [found?_of_outcome_none h]
  rfl

theorem furthest_andMore_of_some {r : Reading m} {f : (c : Cursor) → c.size < m → Reading n}
    (h : r.outcome = some (ps, d)) :
    (r.andMore f).furthest = max r.furthest (f d (size_lt_of_outcome h)).furthest := by
  unfold andMore
  rw [found?_of_outcome h]
  exact Expectation.position_merge _ _

theorem furthest_orElse_of_some {r : Reading n} {s : Unit → Reading n}
    (h : r.outcome = some (ps, d)) : (r.orElse s).furthest = r.furthest := by
  unfold orElse
  rw [found?_of_outcome h]
  rfl

theorem furthest_orElse_of_none {r : Reading n} {s : Unit → Reading n} (h : r.outcome = none) :
    (r.orElse s).furthest = max r.furthest (s ()).furthest := by
  unfold orElse
  rw [found?_of_outcome_none h]
  exact Expectation.position_merge _ _

theorem furthest_orStay (r : Reading (c.size + 1)) : (r.orStay c).furthest = r.furthest := by
  cases h : r.outcome with
  | none => rw [orStay, furthest_orElse_of_none h, furthest_passed, Nat.max_zero]
  | some x => exact furthest_orElse_of_some h

theorem furthest_again {f : (d : Cursor) → d.size ≤ c.size → Reading (c.size + 1)} :
    (again c f).furthest = (f c.skip c.size_skip_le).furthest :=
  furthest_orStay _

theorem furthest_named_of_some {rule : Rule} {r : Reading n} (h : r.outcome = some (ps, d)) :
    (named rule c r).furthest = r.furthest := by
  unfold named
  rw [found?_of_outcome h]
  rfl

theorem furthest_named_of_none {rule : Rule} {r : Reading n} (h : r.outcome = none) :
    (named rule c r).furthest = max c.offset r.furthest := by
  unfold named
  rw [found?_of_outcome_none h]
  exact Expectation.position_failed _ _ _

theorem furthest_le_andMore {r : Reading m} {f : (c : Cursor) → c.size < m → Reading n} :
    r.furthest ≤ (r.andMore f).furthest := by
  cases h : r.outcome with
  | none => exact Nat.le_of_eq (furthest_andMore_of_none h).symm
  | some x =>
      rw [furthest_andMore_of_some h]
      exact Nat.le_max_left _ _

theorem le_furthest_andMore {k : Nat} {r : Reading m} {f : (c : Cursor) → c.size < m → Reading n}
    (h : r.outcome = some (ps, d)) (hk : k ≤ (f d (size_lt_of_outcome h)).furthest) :
    k ≤ (r.andMore f).furthest := by
  rw [furthest_andMore_of_some h]
  exact Nat.le_trans hk (Nat.le_max_right _ _)

theorem furthest_le_orElse {r : Reading n} {s : Unit → Reading n} :
    r.furthest ≤ (r.orElse s).furthest := by
  cases h : r.outcome with
  | none =>
      rw [furthest_orElse_of_none h]
      exact Nat.le_max_left _ _
  | some x => exact Nat.le_of_eq (furthest_orElse_of_some h).symm

theorem le_furthest_orElse {k : Nat} {r : Reading n} {s : Unit → Reading n}
    (h : r.outcome = none) (hk : k ≤ (s ()).furthest) : k ≤ (r.orElse s).furthest := by
  rw [furthest_orElse_of_none h]
  exact Nat.le_trans hk (Nat.le_max_right _ _)

theorem furthest_le_named (rule : Rule) (c : Cursor) (r : Reading n) :
    r.furthest ≤ (named rule c r).furthest := by
  cases h : r.outcome with
  | none =>
      rw [furthest_named_of_none h]
      exact Nat.le_max_right _ _
  | some x => exact Nat.le_of_eq (furthest_named_of_some h).symm

theorem le_furthest_named_andThen {k : Nat} {rule : Rule} {r : Reading m}
    {f : (c : Cursor) → c.size < m → Reading n} (h : r.outcome = some (ps, d))
    (hk : k ≤ (f d.skip (size_skip_lt_of_outcome h)).furthest) :
    k ≤ (named rule c (r.andThen f)).furthest :=
  Nat.le_trans (le_furthest_andMore h hk) (furthest_le_named _ _ _)

/-- The reading fails, and it gets no further than to a place. -/
structure FailsBy (k : Nat) (r : Reading n) : Prop where
  fails : r.outcome = none
  le : r.furthest ≤ k

theorem FailsBy.mono {k l : Nat} {r : Reading n} (h : FailsBy k r) (hle : k ≤ l) : FailsBy l r :=
  ⟨h.fails, Nat.le_trans h.le hle⟩

/-- A rule that fails has got as far as to its own start. -/
theorem FailsBy.offset_le {k : Nat} {rule : Rule} {r : Reading n} (h : FailsBy k (named rule c r)) :
    c.offset ≤ k := by
  obtain ⟨hnone, hle⟩ := h
  rw [outcome_named, Option.map_eq_none_iff] at hnone
  rw [furthest_named_of_none hnone] at hle
  exact Nat.le_trans (Nat.le_max_left _ _) hle

section Place

variable {V : Nat → Prop}

theorem at_max {a b : Nat} (ha : V a) (hb : V b) : V (max a b) := by
  rcases Nat.le_total a b with hle | hle
  · rwa [Nat.max_eq_right hle]
  · rwa [Nat.max_eq_left hle]

theorem at_named {rule : Rule} {r : Reading n} (hc : V c.offset) (hr : V r.furthest) :
    V (named rule c r).furthest := by
  cases h : r.outcome with
  | none =>
      rw [furthest_named_of_none h]
      exact at_max hc hr
  | some x => rwa [furthest_named_of_some h]

/-- What comes second matters only if it got further. -/
theorem at_andMore_lt {r : Reading m} {f : (c : Cursor) → c.size < m → Reading n}
    (hr : V r.furthest)
    (hf : ∀ ps d, ∀ h : r.outcome = some (ps, d),
      r.furthest < (f d (size_lt_of_outcome h)).furthest →
        V (f d (size_lt_of_outcome h)).furthest) : V (r.andMore f).furthest := by
  cases h : r.outcome with
  | none => rwa [furthest_andMore_of_none h]
  | some x =>
      rw [furthest_andMore_of_some h]
      rcases Nat.lt_or_ge r.furthest (f x.2 (size_lt_of_outcome h)).furthest with hlt | hle
      · rw [Nat.max_eq_right (Nat.le_of_lt hlt)]
        exact hf x.1 x.2 h hlt
      · rwa [Nat.max_eq_left hle]

theorem at_andMore {r : Reading m} {f : (c : Cursor) → c.size < m → Reading n} (hr : V r.furthest)
    (hf : ∀ ps d, ∀ h : r.outcome = some (ps, d), V (f d (size_lt_of_outcome h)).furthest) :
    V (r.andMore f).furthest :=
  at_andMore_lt hr fun ps d h _ => hf ps d h

theorem at_andThen {r : Reading m} {f : (c : Cursor) → c.size < m → Reading n} (hr : V r.furthest)
    (hf : ∀ ps d, ∀ h : r.outcome = some (ps, d), V (f d.skip (size_skip_lt_of_outcome h)).furthest) :
    V (r.andThen f).furthest :=
  at_andMore hr hf

theorem at_orElse {r : Reading n} {s : Unit → Reading n} (hr : V r.furthest)
    (hs : r.outcome = none → V (s ()).furthest) : V (r.orElse s).furthest := by
  cases h : r.outcome with
  | some x => rwa [furthest_orElse_of_some h]
  | none =>
      rw [furthest_orElse_of_none h]
      exact at_max hr (hs h)

end Place

end Reading

namespace Cursor

open Reading

theorem furthest_literal (text : String) (c : Cursor) : (c.literal text).furthest = 0 := by
  unfold literal
  split <;> rfl

theorem furthest_oneOf (c : Cursor) (texts : List String) : (c.oneOf texts).furthest = 0 := by
  induction texts with
  | nil => rfl
  | cons text texts ih =>
      rw [oneOf]
      exact at_orElse (V := (· = 0)) (c.furthest_literal text) fun _ => ih

theorem furthest_run (first more : Char → Bool) (c : Cursor) : (c.run first more).furthest = 0 := by
  unfold run
  split
  · rfl
  · split <;> rfl

theorem furthest_semicolon (c : Cursor) : c.semicolon.furthest = 0 := by
  rw [semicolon, furthest_orStay, furthest_widen, furthest_literal]

section Tokens

variable {c : Cursor} {V : Nat → Prop} (hzero : V 0)
include hzero

theorem at_literal (text : String) : V (c.literal text).furthest := by
  rwa [furthest_literal]

theorem at_semicolon : V c.semicolon.furthest := by
  rwa [furthest_semicolon]

variable (hc : V c.offset)
include hc

theorem at_keyword (rule : Rule) (k : Keyword) : V (c.keyword rule k).furthest := by
  refine at_named hc ?_
  rwa [furthest_unlessBefore _ (c.furthest_literal _)]

theorem at_integer : V c.integer.furthest := by
  refine at_named hc ?_
  rwa [furthest_run]

theorem at_boolean : V c.boolean.furthest := by
  refine at_named hc ?_
  rwa [furthest_unlessBefore _ (c.furthest_oneOf _)]

theorem at_identifier : V c.identifier.furthest := by
  refine at_named hc ?_
  split
  · exact hzero
  · rwa [furthest_run]

theorem at_operator (l : Level) : V (c.operator l).furthest := by
  refine at_named hc ?_
  rwa [furthest_oneOf]

theorem at_sign : V c.sign.furthest := by
  refine at_named hc ?_
  rwa [furthest_oneOf]

end Tokens

section Tried

variable {c d : Cursor} {t : Token} {V : Nat → Prop}

theorem at_operand_of_unary (l : Level) (hc : V c.offset) (h : c.unary.outcome = none)
    (hunary : V c.unary.furthest) : V (c.operand l).furthest := by
  have htighter : V (c.tighterOperand l).furthest := by
    cases ht : l.tighter? with
    | none => rwa [tighterOperand_of_none ht]
    | some t =>
        have hrank := Level.rank_tighter ht
        rw [tighterOperand_of_some ht]
        exact at_operand_of_unary t hc h hunary
  rw [operand]
  refine at_named hc (at_andThen htighter fun ps e he => ?_)
  -- An operand would begin with a unary expression.
  obtain ⟨⟨qs, d⟩, hmore⟩ := Option.isSome_iff_exists.mp (isSome_moreOperands l e.skip)
  obtain ⟨x, hx⟩ := exists_unary_of_operand l ⟨_, operand_eq_some.mpr ⟨ps, e, he, qs, hmore, rfl⟩⟩
  rw [h] at hx
  cases hx
termination_by 4 - l.rank
decreasing_by
  have := t.rank_le
  omega

theorem at_expression_of_unary (hc : V c.offset) (h : c.unary.outcome = none)
    (hunary : V c.unary.furthest) : V c.expression.furthest := by
  rw [expression]
  exact at_named hc (at_operand_of_unary .equality hc h hunary)

variable (hzero : V 0) (hc : V c.offset)
include hzero hc

/-- A form that does not begin with its keyword. -/
theorem at_form {n : Nat} {k : Keyword} {f : (e : Cursor) → e.size < c.size → Reading n}
    (rule anchor : Rule) (ht : Steps c t d) (hk : t ≠ .keyword k) :
    V (named rule c ((c.keyword anchor k).andThen f)).furthest := by
  refine at_named hc (at_andThen (at_keyword hzero hc anchor k) fun ps e he => ?_)
  rw [ht.keyword_eq_none anchor hk] at he
  cases he

theorem at_primary_of_grouped (ht : Steps c t d) (hk : ∀ k, t ≠ .keyword k)
    (hgrouped : V c.grouped.furthest) : V c.primary.furthest := by
  have hfunction : V c.functionLiteral.furthest := by
    rw [functionLiteral]
    exact at_form hzero hc _ _ ht (hk _)
  have hif : V c.ifExpression.furthest := by
    rw [ifExpression]
    exact at_form hzero hc _ _ ht (hk _)
  rw [primary]
  exact at_orElse (at_integer hzero hc) fun _ =>
    at_orElse (at_boolean hzero hc) fun _ =>
    at_orElse hfunction fun _ =>
    at_orElse hif fun _ =>
    at_orElse (at_identifier hzero hc) fun _ => hgrouped

omit hzero in
theorem at_call_of_primary (h : c.primary.outcome = none) (hprimary : V c.primary.furthest) :
    V c.call.furthest := by
  rw [call]
  refine at_named hc (at_andThen hprimary fun ps e he => ?_)
  rw [h] at he
  cases he

theorem at_unary_of_primary (ht : Steps c t d) (hsign : c.sign.outcome = none)
    (h : c.primary.outcome = none) (hprimary : V c.primary.furthest) : V c.unary.furthest := by
  have hs := ht.settled
  have hsigns : V c.signs.furthest := by
    rw [signs, furthest_again]
    refine at_andMore ?_ fun ps e he => ?_
    · rw [hs]
      exact at_sign hzero hc
    · rw [hs, hsign] at he
      cases he
  rw [unary]
  refine at_named hc (at_andThen hsigns fun ps e he => ?_)
  obtain ⟨_, _, hq, -⟩ | ⟨-, -, rfl⟩ := signs_eq_some.mp he
  · rw [hs, hsign] at hq
    cases hq
  · rw [furthest_widen, hs]
    exact at_call_of_primary hc h hprimary

theorem at_statement_of_unary (ht : Steps c t d) (hk : ∀ k, t ≠ .keyword k)
    (h : c.unary.outcome = none) (hunary : V c.unary.furthest) : V c.statement.furthest := by
  have hlet : V c.letStatement.furthest := by
    rw [letStatement]
    exact at_form hzero hc _ _ ht (hk _)
  have hreturn : V c.returnStatement.furthest := by
    rw [returnStatement]
    exact at_form hzero hc _ _ ht (hk _)
  have hexpression : V c.expressionStatement.furthest := by
    rw [expressionStatement]
    exact at_named hc (at_andThen (at_expression_of_unary hc h hunary)
      fun ps e _ => at_semicolon hzero)
  rw [statement]
  exact at_orElse hlet fun _ => at_orElse hreturn fun _ => hexpression

theorem at_primary_of_half (hhalf : c.rest.head? = some '=') : V c.primary.furthest := by
  obtain ⟨-, t, d, ht, heq⟩ := steps_of_half hhalf
  refine at_primary_of_grouped hzero hc ht (by rcases heq with rfl | rfl <;> simp) ?_
  rw [grouped, andThen, furthest_andMore_of_none, furthest_literal]
  · exact hzero
  · exact ht.mark_eq_none "(" '(' (by rcases heq with rfl | rfl <;> simp)

theorem at_call_of_half (hhalf : c.rest.head? = some '=') : V c.call.furthest :=
  at_call_of_primary hc (primary_eq_none_of_half hhalf) (at_primary_of_half hzero hc hhalf)

theorem at_expression_of_half (hhalf : c.rest.head? = some '=') : V c.expression.furthest := by
  have hsign := sign_eq_none_of_half hhalf
  have hprimary := primary_eq_none_of_half hhalf
  obtain ⟨hs, t, d, ht, -⟩ := steps_of_half hhalf
  exact at_expression_of_unary hc (unary_eq_none_of_primary hs hsign hprimary)
    (at_unary_of_primary hzero hc ht hsign hprimary (at_primary_of_half hzero hc hhalf))

end Tried

end Cursor
end MonkeyLang
