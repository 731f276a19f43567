import MonkeyLang.Proofs.Grammar.Furthest
import MonkeyLang.Proofs.Grammar.WellFormed

/-!
Where an expression stops. Repetitions go on as long as they can, so behind an expression there are
neither arguments nor an operator with its right operand, and looking for these has got no further
than the expression did. A statement that begins there with one of their tokens would only try the
same again: it fails, and it gets no further.
-/
namespace MonkeyLang
namespace Cursor

open Reading

/-- Nothing more is read here that goes on an expression read at a rank, and looking for it gets no
further than to a place. -/
structure StopsBy (rank n : Nat) (c : Cursor) : Prop where
  arguments : FailsBy n c.skip.arguments
  operand {l : Level} {d : Cursor} {ps : List Piece} (hl : rank ≤ l.rank)
    (h : (c.skip.operator l).outcome = some (ps, d)) : FailsBy n (d.skip.tighterOperand l)

theorem StopsBy.skip {r n : Nat} {c : Cursor} (h : StopsBy r n c) : StopsBy r n c.skip := by
  constructor
  · rw [skip_skip]
    exact h.arguments
  · rw [skip_skip]
    exact h.operand

theorem StopsBy.mono {r n m : Nat} {c : Cursor} (h : StopsBy r n c) (hle : n ≤ m) :
    StopsBy r m c where
  arguments := h.arguments.mono hle
  operand hl hop := (h.operand hl hop).mono hle

theorem le_furthest_moreCalls {k : Nat} {c d : Cursor} {ps : List Piece}
    (h : c.skip.arguments.outcome = some (ps, d)) (hk : k ≤ d.moreCalls.furthest) :
    k ≤ c.moreCalls.furthest := by
  rw [moreCalls, furthest_again]
  exact le_furthest_andMore h hk

theorem furthest_arguments_le_moreCalls (c : Cursor) :
    c.skip.arguments.furthest ≤ c.moreCalls.furthest := by
  rw [moreCalls, furthest_again]
  exact furthest_le_andMore

theorem stopsBy_of_moreCalls {c d : Cursor} {ps : List Piece}
    (h : c.moreCalls.outcome = some (ps, d)) : StopsBy 5 c.moreCalls.furthest d := by
  obtain ⟨qs, e, he, rs, hr, rfl⟩ | ⟨hnone, rfl, rfl⟩ := moreCalls_eq_some.mp h
  · have hsize := size_lt_of_outcome he
    have hskip := c.size_skip_le
    exact (stopsBy_of_moreCalls hr).mono (le_furthest_moreCalls he (Nat.le_refl _))
  · refine ⟨⟨hnone, furthest_arguments_le_moreCalls d⟩, fun {l} _ _ hl => ?_⟩
    have := l.rank_le
    omega
termination_by c.size

theorem stopsBy_of_unary {c d : Cursor} {ps : List Piece} (h : c.unary.outcome = some (ps, d)) :
    StopsBy 5 c.unary.furthest d := by
  obtain ⟨qs, e, he, rs, hcall, -⟩ := unary_eq_some.mp h
  obtain ⟨qs', e', he', rs', hmore, -⟩ := call_eq_some.mp hcall
  have hinner : e'.skip.moreCalls.furthest ≤ e.skip.call.furthest := by
    rw [call]
    exact le_furthest_named_andThen he' (Nat.le_refl _)
  have houter : e.skip.call.furthest ≤ c.unary.furthest := by
    rw [unary]
    exact le_furthest_named_andThen he (Nat.le_refl _)
  exact (stopsBy_of_moreCalls hmore).mono (Nat.le_trans hinner houter)

theorem furthest_tighterOperand_le_moreOperands {l : Level} {c d : Cursor} {ps : List Piece}
    (h : (c.skip.operator l).outcome = some (ps, d)) :
    (d.skip.tighterOperand l).furthest ≤ (c.moreOperands l).furthest := by
  rw [moreOperands, furthest_again]
  exact le_furthest_andMore h furthest_le_andMore

theorem le_furthest_moreOperands {k : Nat} {l : Level} {c d e : Cursor} {ps qs : List Piece}
    (h : (c.skip.operator l).outcome = some (ps, d))
    (h' : (d.skip.tighterOperand l).outcome = some (qs, e))
    (hk : k ≤ (e.moreOperands l).furthest) : k ≤ (c.moreOperands l).furthest := by
  rw [moreOperands, furthest_again]
  exact le_furthest_andMore h (le_furthest_andMore h' hk)

theorem stopsBy_of_moreOperands {n : Nat} {l : Level} {c d : Cursor} {ps : List Piece}
    (hl : ∀ {c d ps}, (tighterOperand l c).outcome = some (ps, d) →
      StopsBy (l.rank + 1) (c.tighterOperand l).furthest d)
    (hc : StopsBy (l.rank + 1) n c) (hn : (c.moreOperands l).furthest ≤ n)
    (h : (c.moreOperands l).outcome = some (ps, d)) : StopsBy l.rank n d := by
  obtain ⟨qs, e, he, rs, e', he', ts, ht, rfl⟩ | ⟨hnone, rfl, rfl⟩ := moreOperands_eq_some.mp h
  · have h1 := size_skip_lt_of_outcome he
    have h2 := size_lt_of_outcome he'
    have h3 := c.size_skip_le
    have hoperand := Nat.le_trans (furthest_tighterOperand_le_moreOperands he) hn
    have hmore := Nat.le_trans (le_furthest_moreOperands he he' (Nat.le_refl _)) hn
    exact stopsBy_of_moreOperands hl ((hl he').mono hoperand) hmore ht
  · refine ⟨hc.arguments, fun {l'} e qs hl' hop => ?_⟩
    by_cases heq : l = l'
    · subst heq
      exact ⟨hnone qs e hop, Nat.le_trans (furthest_tighterOperand_le_moreOperands hop) hn⟩
    · exact hc.operand (Level.rank_lt_of_ne hl' heq) hop
termination_by c.size

theorem stopsBy_of_operand (l : Level) {c d : Cursor} {ps : List Piece}
    (h : (c.operand l).outcome = some (ps, d)) : StopsBy l.rank (c.operand l).furthest d := by
  have hl {c d : Cursor} {ps : List Piece} (h : (c.tighterOperand l).outcome = some (ps, d)) :
      StopsBy (l.rank + 1) (c.tighterOperand l).furthest d := by
    cases ht : l.tighter? with
    | none =>
        rw [tighterOperand_of_none ht] at h ⊢
        rw [Level.rank_of_tighter_none ht]
        exact stopsBy_of_unary h
    | some t =>
        have hrank := Level.rank_tighter ht
        rw [tighterOperand_of_some ht] at h ⊢
        rw [← hrank]
        exact stopsBy_of_operand t h
  obtain ⟨qs, e, he, rs, hmore, rfl⟩ := operand_eq_some.mp h
  have hfirst : (c.tighterOperand l).furthest ≤ (c.operand l).furthest := by
    rw [operand]
    exact Nat.le_trans furthest_le_andMore (furthest_le_named _ _ _)
  have hrest : (e.skip.moreOperands l).furthest ≤ (c.operand l).furthest := by
    rw [operand]
    exact le_furthest_named_andThen he (Nat.le_refl _)
  exact stopsBy_of_moreOperands hl ((hl he).mono hfirst).skip hrest hmore
termination_by 4 - l.rank
decreasing_by
  have := t.rank_le
  omega

theorem stopsBy_of_expression {c d : Cursor} {ps : List Piece}
    (h : c.expression.outcome = some (ps, d)) : StopsBy 1 c.expression.furthest d := by
  obtain ⟨qs, hq, rfl⟩ := expression_eq_some.mp h
  refine (stopsBy_of_operand .equality hq).mono ?_
  rw [expression]
  exact furthest_le_named _ _ _

/-- Layout makes no difference to the signs that are read behind it. -/
theorem signs_skip {c d : Cursor} {qs : List Piece} (h : c.signs.outcome = some (qs, d)) :
    ∃ e, c.skip.signs.outcome = some (qs, e) ∧ e.skip = d.skip := by
  obtain ⟨qs', d', hq, rs, hr, rfl⟩ | ⟨hnone, rfl, rfl⟩ := signs_eq_some.mp h
  · refine ⟨d, signs_eq_some.mpr (.inl ⟨qs', d', ?_, rs, hr, rfl⟩), rfl⟩
    rwa [skip_skip]
  · refine ⟨d.skip, signs_eq_some.mpr (.inr ⟨?_, rfl, rfl⟩), skip_skip d⟩
    rwa [skip_skip]

/-- What is read between parentheses is also read as the only argument. -/
theorem exists_arguments_of_grouped {c e : Cursor} {ps : List Piece} (hs : c.skip = c)
    (h : c.grouped.outcome = some (ps, e)) : ∃ x, c.arguments.outcome = some x := by
  obtain ⟨d, hd, d', hq, he⟩ := (grouped_eq_some hs).mp h
  have hmore : d'.skip.moreArguments.outcome = some ([], d'.skip) := by
    refine moreArguments_eq_some.mpr (.inr ⟨fun d'' hcomma => ?_, rfl, rfl⟩)
    rw [skip_skip] at hcomma
    cases hcomma.token_unique he
  have hlist := argumentList_eq_some.mpr (.inl ⟨ps, d', hq, [], hmore, rfl⟩)
  exact ⟨_, (arguments_eq_some hs).mpr ⟨d, hd, _, d'.skip, hlist, by rwa [skip_skip], rfl⟩⟩

theorem exists_unary_of_statement {c d e : Cursor} {t : Token} {ps : List Piece}
    (ht : Steps c t d) (hk : ∀ k, t ≠ .keyword k) (h : c.statement.outcome = some (ps, e)) :
    ∃ x, c.unary.outcome = some x := by
  rw [statement, outcome_orElse, ht.letStatement_eq_none (hk _), Option.none_or,
    outcome_orElse, ht.returnStatement_eq_none (hk _), Option.none_or] at h
  obtain ⟨qs, d', hexpression, -⟩ := expressionStatement_eq_some.mp h
  obtain ⟨rs, hoperand, -⟩ := expression_eq_some.mp hexpression
  exact exists_unary_of_operand .equality ⟨_, hoperand⟩

theorem StopsBy.primary_eq_none {r n : Nat} {c d : Cursor} (hc : StopsBy r n c)
    (ht : Steps c.skip (.symbol '(') d) : c.skip.primary.outcome = none := by
  rw [ht.outcome_primary, Option.eq_none_iff_forall_ne_some]
  rintro ⟨ps, e⟩ h
  obtain ⟨x, hargs⟩ := exists_arguments_of_grouped (skip_skip c) h
  rw [hc.arguments.fails] at hargs
  cases hargs

theorem furthest_grouped_le_arguments (c : Cursor) :
    c.grouped.furthest ≤ c.arguments.furthest := by
  rw [grouped]
  refine at_andThen (V := (· ≤ c.arguments.furthest)) ?_ fun ps d hd => ?_
  · rw [furthest_literal]
    exact Nat.zero_le _
  · have hlist : d.skip.expression.furthest ≤ d.skip.argumentList.furthest := by
      rw [argumentList, furthest_orStay]
      exact furthest_le_andMore
    have harguments : d.skip.argumentList.furthest ≤ c.arguments.furthest := by
      rw [arguments]
      exact le_furthest_named_andThen hd furthest_le_andMore
    refine at_andThen (V := (· ≤ c.arguments.furthest)) (Nat.le_trans hlist harguments) ?_
    intro qs e _
    rw [furthest_widen, furthest_literal]
    exact Nat.zero_le _

theorem offset_le_skip (c : Cursor) : c.offset ≤ c.skip.offset := Nat.le_add_right _ _

theorem Steps.offset_le {c d : Cursor} {t : Token} (h : Steps c t d) : c.offset ≤ d.offset := by
  rw [h.eq_advance]
  exact Nat.le_add_right _ _

theorem furthest_signs (c : Cursor) :
    c.signs.furthest = c.skip.sign.outcome.elim c.skip.sign.furthest
      fun x => max c.skip.sign.furthest x.2.signs.furthest := by
  rw [signs, furthest_again]
  cases h : c.skip.sign.outcome with
  | none => exact furthest_andMore_of_none h
  | some x => exact furthest_andMore_of_some h

theorem furthest_signs_skip (c : Cursor) : c.skip.signs.furthest = c.signs.furthest := by
  rw [furthest_signs, skip_skip, ← furthest_signs]

/-- What stands in parentheses has been tried as the arguments of a call. -/
theorem StopsBy.paren {r n : Nat} {c d : Cursor} (hc : StopsBy r n c)
    (ht : Steps c.skip (.symbol '(') d) : FailsBy n c.skip.unary := by
  have hoffset : c.skip.offset ≤ n := by
    have hfails := hc.arguments
    rw [Cursor.arguments] at hfails
    exact hfails.offset_le
  have hsign := ht.sign_eq_none (by intro op; cases op <;> simp [UnaryOp.token]) (by simp)
  have hprimary : c.skip.primary.furthest ≤ n :=
    at_primary_of_grouped (V := (· ≤ n)) (Nat.zero_le _) hoffset ht (by simp)
      (Nat.le_trans (furthest_grouped_le_arguments c.skip) hc.arguments.le)
  exact ⟨unary_eq_none_of_primary (skip_skip c) hsign (hc.primary_eq_none ht),
    at_unary_of_primary (V := (· ≤ n)) (Nat.zero_le _) hoffset ht hsign (hc.primary_eq_none ht)
      hprimary⟩

theorem signs_of_sign {c d e : Cursor} {op : UnaryOp} {ps : List Piece} (ht : Steps c op.token d)
    (h : c.signs.outcome = some (ps, e)) :
    ∃ qs f, d.skip.signs.outcome = some (qs, f) ∧ f.skip = e.skip := by
  obtain ⟨rs, d', hsign, qs, hmore, -⟩ | ⟨hnone, -⟩ := signs_eq_some.mp h
  · rw [ht.settled, ht.sign] at hsign
    cases hsign
    exact ⟨qs, signs_skip hmore⟩
  · rw [ht.settled, ht.sign] at hnone
    cases hnone

/-- A sign with its operand has been tried as an operator with its right operand. -/
theorem failsBy_of_sign {n : Nat} {c d : Cursor} {op : UnaryOp} (ht : Steps c op.token d)
    (hoffset : c.offset ≤ n) (h : FailsBy n d.skip.unary) : FailsBy n c.unary := by
  have hsigns : d.signs.furthest ≤ d.skip.unary.furthest := by
    rw [← furthest_signs_skip, unary]
    exact Nat.le_trans furthest_le_andMore (furthest_le_named _ _ _)
  constructor
  · rw [Option.eq_none_iff_forall_ne_some]
    rintro ⟨ps, e⟩ hunary
    obtain ⟨qs, d', hq, rs, hcall, -⟩ := unary_eq_some.mp hunary
    obtain ⟨us, f, hrest, hskip⟩ := signs_of_sign ht hq
    rw [← hskip] at hcall
    have hright := unary_eq_some.mpr ⟨us, f, hrest, rs, hcall, rfl⟩
    rw [h.fails] at hright
    cases hright
  · rw [unary]
    refine at_named (V := (· ≤ n)) hoffset (at_andThen (V := (· ≤ n)) ?_ fun ps e he => ?_)
    · rw [furthest_signs, ht.settled, ht.sign]
      exact Nat.max_le.mpr
        ⟨at_sign (V := (· ≤ n)) (Nat.zero_le _) hoffset, Nat.le_trans hsigns h.le⟩
    · obtain ⟨qs, f, hrest, hskip⟩ := signs_of_sign ht he
      refine Nat.le_trans ?_ h.le
      rw [unary, furthest_widen, ← hskip]
      exact le_furthest_named_andThen hrest (Nat.le_refl _)

/-- What stands behind a minus has been tried as the right operand of a difference. -/
theorem StopsBy.minus {r n : Nat} {c d : Cursor} (hc : StopsBy r n c) (hr : r ≤ Level.rank .sum)
    (ht : Steps c.skip (.symbol '-') d) : FailsBy n c.skip.unary := by
  have hunary : Steps c.skip UnaryOp.neg.token d := ht
  have hbinary : Steps c.skip BinaryOp.sub.token d := ht
  have hoperator := (operator_eq_some (skip_skip c)).mpr ⟨.sub, rfl, rfl, hbinary⟩
  have hright : FailsBy n (d.skip.tighterOperand .sum) := hc.operand hr hoperator
  rw [tighterOperand_of_some rfl] at hright
  have hoperand : FailsBy n d.skip.unary := by
    constructor
    · rw [Option.eq_none_iff_forall_ne_some]
      intro x hx
      obtain ⟨y, hy⟩ := exists_operand_of_unary .product ⟨x, hx⟩
      rw [hright.fails] at hy
      cases hy
    · refine Nat.le_trans ?_ hright.le
      rw [Cursor.operand, tighterOperand_of_none rfl]
      exact Nat.le_trans furthest_le_andMore (furthest_le_named _ _ _)
  rw [Cursor.operand] at hright
  have hoffset : c.skip.offset ≤ n :=
    Nat.le_trans ht.offset_le (Nat.le_trans d.offset_le_skip hright.offset_le)
  exact failsBy_of_sign hunary hoffset hoperand

/-- A statement that begins like a part of the expression has been tried as that part. -/
theorem StopsBy.statement {n : Nat} {c d : Cursor} {t : Token} (hc : StopsBy 1 n c)
    (ht : Steps c.skip t d) (hjoins : t.joins = true) : FailsBy n c.skip.statement := by
  obtain ⟨hk, hunary⟩ : (∀ k, t ≠ .keyword k) ∧ FailsBy n c.skip.unary := by
    obtain rfl | rfl : t = .symbol '(' ∨ t = .symbol '-' := by simpa [Token.joins] using hjoins
    · exact ⟨by simp, hc.paren ht⟩
    · exact ⟨by simp, hc.minus (by decide) ht⟩
  have hoffset : c.skip.offset ≤ n := by
    have hfails := hunary
    rw [unary] at hfails
    exact hfails.offset_le
  constructor
  · rw [Option.eq_none_iff_forall_ne_some]
    rintro ⟨ps, e⟩ h
    obtain ⟨x, hx⟩ := exists_unary_of_statement ht hk h
    rw [hunary.fails] at hx
    cases hx
  · exact at_statement_of_unary (V := (· ≤ n)) (Nat.zero_le _) hoffset ht hk hunary.fails hunary.le

theorem StopsBy.not_joins {n : Nat} {c d e : Cursor} {t : Token} {ps : List Piece}
    (hc : StopsBy 1 n c) (ht : Steps c.skip t d)
    (h : c.skip.statement.outcome = some (ps, e)) : t.joins = false := by
  rw [← Bool.not_eq_true]
  intro hjoins
  rw [(hc.statement ht hjoins).fails] at h
  cases h

theorem StopsBy.statements_le {n : Nat} {c d : Cursor} {t : Token} (hc : StopsBy 1 n c)
    (ht : Steps c.skip t d) (hjoins : t.joins = true) : c.statements.furthest ≤ n := by
  have hstatement := hc.statement ht hjoins
  rw [statements, furthest_again, furthest_andMore_of_none hstatement.fails]
  exact hstatement.le

end Cursor
end MonkeyLang
