import MonkeyLang.Proofs.Grammar.Rules

/-!
Choices. The next token settles which of the alternatives of a rule can be read, and whether an
optional part is there. Operands of all levels can be read where a unary phrase can.
-/
namespace MonkeyLang
namespace Cursor

open Reading

theorem Steps.settled {c d : Cursor} {t : Token} (h : Steps c t d) : c.skip = c := by
  obtain ⟨hs, -⟩ := h
  exact hs

section Absent

variable {c d : Cursor} {t : Token}

/-- A reading that begins by passing some other token fails. -/
theorem Steps.eq_none {n : Nat} {r : Reading n} {p : Token → Prop} (h : Steps c t d) (ht : ¬ p t)
    (hr : ∀ ps e, r.outcome = some (ps, e) → ∃ u e', p u ∧ Steps c u e') : r.outcome = none := by
  rw [Option.eq_none_iff_forall_ne_some]
  rintro ⟨ps, e⟩ he
  obtain ⟨u, e', hu, hstep⟩ := hr ps e he
  rw [h.token_unique hstep] at ht
  exact ht hu

theorem Steps.mark_eq_none (text : String) (ch : Char) (h : Steps c t d) (ht : t ≠ .symbol ch)
    (htext : text = String.singleton ch := by rfl) (hmark : isMark ch = true := by decide) :
    (c.literal text).outcome = none :=
  h.eq_none (p := (· = .symbol ch)) ht fun _ e he =>
    ⟨_, e, rfl, ((mark_eq_some text ch h.settled htext hmark).mp he).2⟩

theorem Steps.keyword_eq_none {k : Keyword} (rule : Rule) (h : Steps c t d) (ht : t ≠ .keyword k) :
    (c.keyword rule k).outcome = none :=
  h.eq_none (p := (· = .keyword k)) ht fun _ e he =>
    ⟨_, e, rfl, ((keyword_eq_some h.settled).mp he).2⟩

theorem Steps.integer_eq_none (h : Steps c t d) (ht : ∀ digits, t ≠ .numeral digits) :
    c.integer.outcome = none := by
  refine h.eq_none (p := fun u => ∃ digits, u = .numeral digits) (not_exists.mpr ht) ?_
  intro ps e he
  obtain ⟨digits, -, hstep⟩ := (integer_eq_some h.settled).mp he
  exact ⟨_, e, ⟨digits, rfl⟩, hstep⟩

theorem Steps.boolean_eq_none (h : Steps c t d) (ht : ∀ b, t ≠ .keyword (.ofBool b)) :
    c.boolean.outcome = none := by
  refine h.eq_none (p := fun u => ∃ b, u = .keyword (.ofBool b)) (not_exists.mpr ht) ?_
  intro ps e he
  obtain ⟨b, -, hstep⟩ := (boolean_eq_some h.settled).mp he
  exact ⟨_, e, ⟨b, rfl⟩, hstep⟩

theorem Steps.identifier_eq_none (h : Steps c t d) (ht : ∀ name, t ≠ .name name) :
    c.identifier.outcome = none := by
  refine h.eq_none (p := fun u => ∃ name, u = .name name) (not_exists.mpr ht) ?_
  intro ps e he
  obtain ⟨name, -, hstep⟩ := (identifier_eq_some h.settled).mp he
  exact ⟨_, e, ⟨name, rfl⟩, hstep⟩

theorem Steps.sign_eq_none (h : Steps c t d) (hop : ∀ op : UnaryOp, op.token ≠ t)
    (ht : t ≠ .notEqual) : c.sign.outcome = none := by
  refine h.eq_none (p := fun u => (∃ op : UnaryOp, op.token = u) ∨ u = .notEqual)
    (not_or.mpr ⟨not_exists.mpr hop, ht⟩) ?_
  intro ps e he
  obtain ⟨op, hstep⟩ | ⟨⟨e', hstep⟩, -⟩ := steps_of_sign h.settled he
  · exact ⟨_, e, .inl ⟨op, rfl⟩, hstep⟩
  · exact ⟨_, e', .inr rfl, hstep⟩

/-- A form that begins with a keyword. -/
theorem Steps.form_eq_none {n : Nat} {k : Keyword} {f : (e : Cursor) → e.size < c.size → Reading n}
    (rule anchor : Rule) (h : Steps c t d) (ht : t ≠ .keyword k) :
    (named rule c ((c.keyword anchor k).andThen f)).outcome = none := by
  rw [outcome_named, outcome_andThen_of_none (h.keyword_eq_none anchor ht), Option.map_none]

theorem Steps.functionLiteral_eq_none (h : Steps c t d) (ht : t ≠ .keyword .fnWord) :
    c.functionLiteral.outcome = none := by
  rw [functionLiteral]
  exact h.form_eq_none _ _ ht

theorem Steps.ifExpression_eq_none (h : Steps c t d) (ht : t ≠ .keyword .ifWord) :
    c.ifExpression.outcome = none := by
  rw [ifExpression]
  exact h.form_eq_none _ _ ht

theorem Steps.letStatement_eq_none (h : Steps c t d) (ht : t ≠ .keyword .letWord) :
    c.letStatement.outcome = none := by
  rw [letStatement]
  exact h.form_eq_none _ _ ht

theorem Steps.returnStatement_eq_none (h : Steps c t d) (ht : t ≠ .keyword .returnWord) :
    c.returnStatement.outcome = none := by
  rw [returnStatement]
  exact h.form_eq_none _ _ ht

theorem Steps.grouped_eq_none (h : Steps c t d) (ht : t ≠ .symbol '(') :
    c.grouped.outcome = none := by
  rw [grouped, outcome_andThen_of_none (h.mark_eq_none "(" '(' ht)]

end Absent

theorem Steps.outcome_primary {c d : Cursor} {t : Token} (h : Steps c t d) :
    c.primary.outcome =
      match t with
      | .numeral _ => c.integer.outcome
      | .keyword .trueWord | .keyword .falseWord => c.boolean.outcome
      | .keyword .fnWord => c.functionLiteral.outcome
      | .keyword .ifWord => c.ifExpression.outcome
      | .name _ => c.identifier.outcome
      | _ => c.grouped.outcome := by
  have hinteger := h.integer_eq_none
  have hboolean := h.boolean_eq_none
  have hfunction := h.functionLiteral_eq_none
  have hif := h.ifExpression_eq_none
  have hidentifier := h.identifier_eq_none
  have hgrouped := h.grouped_eq_none
  simp only [primary, outcome_orElse]
  cases t with
  | keyword k => cases k <;> simp_all [Keyword.ofBool]
  | numeral _ | name _ | equal | notEqual | symbol _ => simp_all

theorem sign_eq_none_of_half {c : Cursor} (h : c.rest.head? = some '=') :
    c.sign.outcome = none := by
  obtain ⟨-, t, d, hstep, ht⟩ := steps_of_half h
  refine hstep.sign_eq_none (fun op => ?_) ?_
  · rcases ht with rfl | rfl <;> cases op <;> decide
  · rcases ht with rfl | rfl <;> decide

theorem primary_eq_none_of_half {c : Cursor} (h : c.rest.head? = some '=') :
    c.primary.outcome = none := by
  obtain ⟨-, t, d, hstep, ht⟩ := steps_of_half h
  rw [hstep.outcome_primary]
  rcases ht with rfl | rfl <;> exact hstep.grouped_eq_none (by simp)

theorem exists_operand_of_unary (l : Level) {c : Cursor}
    (h : ∃ x, c.unary.outcome = some x) : ∃ x, (c.operand l).outcome = some x := by
  have htighter : ∃ x, (c.tighterOperand l).outcome = some x := by
    cases ht : l.tighter? with
    | none => rwa [tighterOperand_of_none ht]
    | some t =>
        have hrank := Level.rank_tighter ht
        rw [tighterOperand_of_some ht]
        exact exists_operand_of_unary t h
  obtain ⟨⟨qs, d⟩, hq⟩ := htighter
  obtain ⟨⟨rs, e⟩, hr⟩ := Option.isSome_iff_exists.mp (isSome_moreOperands l d.skip)
  exact ⟨_, operand_eq_some.mpr ⟨qs, d, hq, rs, hr, rfl⟩⟩
termination_by 4 - l.rank
decreasing_by
  have := t.rank_le
  omega

theorem exists_unary_of_operand (l : Level) {c : Cursor}
    (h : ∃ x, (c.operand l).outcome = some x) : ∃ x, c.unary.outcome = some x := by
  obtain ⟨⟨ps, e⟩, h⟩ := h
  obtain ⟨qs, d, hq, -⟩ := operand_eq_some.mp h
  cases ht : l.tighter? with
  | none =>
      rw [tighterOperand_of_none ht] at hq
      exact ⟨_, hq⟩
  | some t =>
      have hrank := Level.rank_tighter ht
      rw [tighterOperand_of_some ht] at hq
      exact exists_unary_of_operand t ⟨_, hq⟩
termination_by 4 - l.rank
decreasing_by
  have := t.rank_le
  omega

theorem unary_eq_none_of_primary {c : Cursor} (hs : c.skip = c) (hsign : c.sign.outcome = none)
    (hprimary : c.primary.outcome = none) : c.unary.outcome = none := by
  rw [Option.eq_none_iff_forall_ne_some]
  rintro ⟨ps, e⟩ h
  obtain ⟨qs, d, hsigns, rs, hcall, -⟩ := unary_eq_some.mp h
  obtain ⟨_, _, hq, -⟩ | ⟨-, rfl, rfl⟩ := signs_eq_some.mp hsigns
  · rw [hs, hsign] at hq
    cases hq
  · obtain ⟨us, d₁, hfirst, -⟩ := call_eq_some.mp hcall
    rw [hs, hprimary] at hfirst
    cases hfirst

end Cursor
end MonkeyLang
