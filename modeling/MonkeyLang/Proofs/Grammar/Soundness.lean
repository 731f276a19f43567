import MonkeyLang.Proofs.Grammar.Stopping

/-!
Whatever the grammar reads is a well-formed phrase. The induction is on what is left of the text;
at one cursor the rules follow each other from the tightest to the loosest. What has been read is
passed token by token, so that nothing is said yet about the pieces that are found.
-/
namespace MonkeyLang

theorem separated_cons (item : List Token) (items : List (List Token)) :
    separated (item :: items) = item ++ items.flatMap (.symbol ',' :: ·) := by
  induction items generalizing item with
  | nil => simp [separated]
  | cons next items ih => rw [separated, ih, List.flatMap_cons, List.cons_append]; simp

namespace Cursor

open Reading

theorem Ends.passes {c d : Cursor} {ended : Bool} (h : Ends c ended d) :
    Passes c (ending ended) d := by
  cases h with
  | ended h => exact h.passes
  | unended => exact .refl c

theorem Passes.head_eq {c d : Cursor} {t : Token} {ts us : List Token} (h : Passes c us d)
    (hus : us = t :: ts) : ∃ e, Steps c.skip t e := by
  have htokens := h.tokens_eq
  rw [hus, ← tokens_skip, List.cons_append] at htokens
  obtain ⟨e, he, -⟩ := exists_steps (skip_skip c) htokens
  exact ⟨e, he⟩

theorem not_passes_of_half {c d : Cursor} {p : Phrase} (h : c.rest.head? = some '=') :
    ¬ Passes c.skip p.tokens d := by
  intro hp
  obtain ⟨hsettled, t, e, hstep, ht⟩ := steps_of_half h
  obtain ⟨u, us, hus, hu⟩ := p.exists_tokens_eq
  obtain ⟨e', he'⟩ := hp.head_eq hus
  rw [skip_skip, hsettled] at he'
  rw [he'.token_unique hstep] at hu
  rcases ht with rfl | rfl <;> exact absurd hu (by decide)

theorem moreParameters_sound {c d : Cursor} {ps : List Piece}
    (h : c.moreParameters.outcome = some (ps, d)) :
    ∃ names : List String,
      Passes c ((names.map ([.name ·])).flatMap (.symbol ',' :: ·)) d := by
  obtain ⟨e, he, qs, e', hq, rs, hr, rfl⟩ | ⟨-, rfl, rfl⟩ := moreParameters_eq_some.mp h
  · have hlt : e'.size < c.size := by
      have := size_lt_of_outcome hq
      have := he.size_lt
      have := e.size_skip_le
      have := c.size_skip_le
      omega
    obtain ⟨name, -, hname⟩ := (identifier_eq_some (skip_skip e)).mp hq
    obtain ⟨names, hnames⟩ := moreParameters_sound hr
    exact ⟨name :: names, .layout (.step he (.layout (.step hname hnames)))⟩
  · exact ⟨[], .refl _⟩
termination_by c.size

theorem parameters_sound {c d : Cursor} {ps : List Piece} (hs : c.skip = c)
    (h : c.parameters.outcome = some (ps, d)) :
    ∃ names : List String, Passes c (parenthesized (separated (names.map ([.name ·])))) d := by
  obtain ⟨e, he, qs, e', hlist, hd, -⟩ := (parameters_eq_some hs).mp h
  obtain ⟨names, hnames⟩ : ∃ names : List String,
      Passes e.skip (separated (names.map ([.name ·]))) e' := by
    obtain ⟨us, f, hu, rs, hr, -⟩ | ⟨-, -, rfl⟩ := parameterList_eq_some.mp hlist
    · obtain ⟨name, -, hname⟩ := (identifier_eq_some (skip_skip e)).mp hu
      obtain ⟨names, hnames⟩ := moreParameters_sound hr
      refine ⟨name :: names, ?_⟩
      rw [List.map_cons, separated_cons]
      exact .step hname (.layout hnames)
    · exact ⟨[], .refl _⟩
  exact ⟨names, .step he (.trans (.layout hnames) (.layout hd.passes))⟩

/-- A clause is read from one cursor to another. Behind a clause without a semicolon nothing is
found that would go on it, and looking for it gets no further than to a place. -/
def ReadsClause (c d : Cursor) (n : Nat) : Prop :=
  ∃ cl : Clause, cl.WellFormed ∧ Passes c cl.tokens d ∧
    (cl.ended = true ∨ StopsBy 1 n d)

theorem ReadsClause.mono {n m : Nat} {c d : Cursor} (h : ReadsClause c d n) (hle : n ≤ m) :
    ReadsClause c d m := by
  obtain ⟨cl, hcl, hpasses, hstop⟩ := h
  exact ⟨cl, hcl, hpasses, hstop.imp_right (·.mono hle)⟩

/-- What the rules for expressions and statements read at a cursor. -/
structure Sound (c : Cursor) : Prop where
  expression {d : Cursor} {ps : List Piece} (h : c.expression.outcome = some (ps, d)) :
    ∃ p : Phrase, p.WellFormed ∧ Passes c p.tokens d
  tighterOperand (l : Level) {d : Cursor} {ps : List Piece}
    (h : (c.tighterOperand l).outcome = some (ps, d)) :
    ∃ p : Phrase, p.WellFormed ∧ l.rank < p.precedence ∧ Passes c p.tokens d
  statement {d : Cursor} {ps : List Piece} (h : c.statement.outcome = some (ps, d)) :
    ReadsClause c d c.statement.furthest

/-- All rules are sound where less than a bound is left. -/
def SoundBelow (n : Nat) : Prop := ∀ c : Cursor, c.skip = c → c.size < n → Sound c

theorem moreArguments_sound {n : Nat} {c d : Cursor} {ps : List Piece}
    (ih : SoundBelow n) (hc : c.size ≤ n)
    (h : c.moreArguments.outcome = some (ps, d)) :
    ∃ args, PhrasesWellFormed args ∧
      Passes c ((phraseTokens args).flatMap (.symbol ',' :: ·)) d := by
  obtain ⟨e, he, qs, e', hq, rs, hr, rfl⟩ | ⟨-, rfl, rfl⟩ := moreArguments_eq_some.mp h
  · have h₁ := c.size_skip_le
    have h₂ := he.size_lt
    have h₃ := e.size_skip_le
    have h₄ := size_lt_of_outcome hq
    obtain ⟨p, hp, hpasses⟩ := (ih e.skip (skip_skip e) (by omega)).expression hq
    obtain ⟨args, hargs, hmore⟩ := moreArguments_sound ih (by omega) hr
    refine ⟨p :: args, ⟨hp, hargs⟩, .layout (.step he (.layout ?_))⟩
    exact hpasses.trans hmore
  · exact ⟨[], trivial, .refl _⟩
termination_by c.size

theorem arguments_sound {n : Nat} {c d : Cursor} {ps : List Piece}
    (ih : SoundBelow n) (hs : c.skip = c) (hc : c.size ≤ n)
    (h : c.arguments.outcome = some (ps, d)) :
    ∃ args, PhrasesWellFormed args ∧
      Passes c (parenthesized (separated (phraseTokens args))) d := by
  obtain ⟨e, he, qs, e', hlist, hd, -⟩ := (arguments_eq_some hs).mp h
  have h₁ := he.size_lt
  have h₂ := e.size_skip_le
  obtain ⟨args, hargs, hpasses⟩ : ∃ args, PhrasesWellFormed args ∧
      Passes e.skip (separated (phraseTokens args)) e' := by
    obtain ⟨us, f, hu, rs, hr, -⟩ | ⟨-, -, rfl⟩ := argumentList_eq_some.mp hlist
    · have h₃ := size_skip_lt_of_outcome hu
      obtain ⟨p, hp, hfirst⟩ := (ih e.skip (skip_skip e) (by omega)).expression hu
      obtain ⟨args, hargs, hmore⟩ := moreArguments_sound ih (by omega) hr
      refine ⟨p :: args, ⟨hp, hargs⟩, ?_⟩
      rw [phraseTokens, separated_cons]
      exact hfirst.trans (.layout hmore)
    · exact ⟨[], trivial, .refl _⟩
  exact ⟨args, hargs, .step he (.trans (.layout hpasses) (.layout hd.passes))⟩

theorem statements_sound {n : Nat} {c d : Cursor} {ps : List Piece}
    (ih : SoundBelow n) (hc : c.size < n)
    (h : c.statements.outcome = some (ps, d)) :
    ∃ cs, ClausesWellFormed cs ∧ Passes c (clauseTokens cs) d ∧
      (cs ≠ [] → ∃ x, c.skip.statement.outcome = some x) := by
  obtain ⟨qs, e, hq, rs, hr, rfl⟩ | ⟨-, rfl, rfl⟩ := statements_eq_some.mp h
  · have h₁ := c.size_skip_le
    have h₂ := size_lt_of_outcome hq
    obtain ⟨cl, hcl, hpasses, hstop⟩ := (ih c.skip (skip_skip c) (by omega)).statement hq
    obtain ⟨cs, hcs, hmore, hnext⟩ := statements_sound ih (by omega) hr
    refine ⟨cl :: cs, ⟨hcl, hstop.imp_right fun hstop => ?_, hcs⟩,
      .layout (hpasses.trans hmore), fun _ => ⟨_, hq⟩⟩
    cases cs with
    | nil => rfl
    | cons cl' cs =>
        obtain ⟨t, ts, hts, -⟩ := cl'.exists_tokens_eq
        obtain ⟨x, hx⟩ := hnext (List.cons_ne_nil _ _)
        -- A statement goes as far as it can, so the next one does not begin like a part of it.
        rw [clauseTokens, hts, List.cons_append] at hmore
        obtain ⟨f, hf⟩ := hmore.head_eq rfl
        rw [clauseTokens, hts, List.cons_append]
        exact hstop.not_joins hf hx
  · exact ⟨[], trivial, .refl _, fun hne => absurd rfl hne⟩
termination_by c.size

theorem block_sound {n : Nat} {c d : Cursor} {ps : List Piece}
    (ih : SoundBelow n) (hs : c.skip = c) (hc : c.size ≤ n)
    (h : c.block.outcome = some (ps, d)) :
    ∃ cs, ClausesWellFormed cs ∧ Passes c (braced (clauseTokens cs)) d := by
  obtain ⟨e, he, qs, e', hlist, hd, -⟩ := (block_eq_some hs).mp h
  have h₁ := he.size_lt
  have h₂ := e.size_skip_le
  obtain ⟨cs, hcs, hpasses, -⟩ := statements_sound ih (by omega) hlist
  exact ⟨cs, hcs, .step he (.trans (.layout hpasses) (.layout hd.passes))⟩

theorem functionLiteral_sound {n : Nat} {c d : Cursor} {ps : List Piece} (ih : SoundBelow n)
    (hs : c.skip = c) (hc : c.size ≤ n) (h : c.functionLiteral.outcome = some (ps, d)) :
    ∃ p : Phrase, p.WellFormed ∧ 7 ≤ p.precedence ∧ Passes c p.tokens d := by
  obtain ⟨e, he, qs, e', hq, rs, hr, -⟩ := (functionLiteral_eq_some hs).mp h
  have h₁ := he.size_lt
  have h₂ := e.size_skip_le
  have h₃ := size_skip_lt_of_outcome hq
  obtain ⟨params, hparams⟩ := parameters_sound (skip_skip e) hq
  obtain ⟨body, hbody, hpasses⟩ := block_sound ih (skip_skip e') (by omega) hr
  exact ⟨.function params body, hbody, Nat.le_refl 7,
    .step he (.trans (.layout hparams) (.layout hpasses))⟩

theorem ifExpression_sound {n : Nat} {c d : Cursor} {ps : List Piece} (ih : SoundBelow n)
    (hs : c.skip = c) (hc : c.size ≤ n) (h : c.ifExpression.outcome = some (ps, d)) :
    ∃ p : Phrase, p.WellFormed ∧ 7 ≤ p.precedence ∧ Passes c p.tokens d := by
  obtain ⟨e, he, e₁, h₁, qs, e₂, hq, e₃, h₃, rs, e₄, hr, ts, ht, -⟩ :=
    (ifExpression_eq_some hs).mp h
  have l₁ := he.size_lt
  have l₂ := e.size_skip_le
  have l₃ := h₁.size_lt
  have l₄ := e₁.size_skip_le
  have l₅ := size_skip_lt_of_outcome hq
  have l₆ := h₃.size_lt
  have l₇ := e₃.size_skip_le
  have l₈ := size_skip_lt_of_outcome hr
  obtain ⟨test, htest, hp₁⟩ := (ih e₁.skip (skip_skip e₁) (by omega)).expression hq
  obtain ⟨yes, hyes, hp₂⟩ := block_sound ih (skip_skip e₃) (by omega) hr
  have hhead : Passes c (.keyword .ifWord :: parenthesized test.tokens ++
      braced (clauseTokens yes)) e₄ :=
    .step he (.layout (.step h₁ (.trans (.trans (.layout hp₁) (.layout h₃.passes)) (.layout hp₂))))
  obtain ⟨e₅, h₅, us, hu, -⟩ | ⟨-, -, rfl⟩ := (alternative_eq_some (skip_skip e₄)).mp ht
  · have l₉ := h₅.size_lt
    have l₁₀ := e₅.size_skip_le
    obtain ⟨no, hno, hp₃⟩ := block_sound ih (skip_skip e₅) (by omega) hu
    exact ⟨.conditional test yes (some no), ⟨htest, hyes, hno⟩, Nat.le_refl 7,
      hhead.trans (.layout (.step h₅ (.layout hp₃)))⟩
  · exact ⟨.conditional test yes none, ⟨htest, hyes⟩, Nat.le_refl 7, hhead.skip⟩

theorem primary_sound {n : Nat} {c d : Cursor} {ps : List Piece} (ih : SoundBelow n)
    (hs : c.skip = c) (hc : c.size ≤ n) (h : c.primary.outcome = some (ps, d)) :
    ∃ p : Phrase, p.WellFormed ∧ 7 ≤ p.precedence ∧ Passes c p.tokens d := by
  simp only [primary, outcome_orElse, Option.or_eq_some_iff] at h
  obtain h | ⟨-, h | ⟨-, h | ⟨-, h | ⟨-, h | ⟨-, h⟩⟩⟩⟩⟩ := h
  · obtain ⟨digits, -, hd⟩ := (integer_eq_some hs).mp h
    exact ⟨.numeral digits, trivial, Nat.le_refl 7, hd.passes⟩
  · obtain ⟨value, -, hd⟩ := (boolean_eq_some hs).mp h
    exact ⟨.boolean value, trivial, Nat.le_refl 7, hd.passes⟩
  · exact functionLiteral_sound ih hs hc h
  · exact ifExpression_sound ih hs hc h
  · obtain ⟨name, -, hd⟩ := (identifier_eq_some hs).mp h
    exact ⟨.name name, trivial, Nat.le_refl 7, hd.passes⟩
  · obtain ⟨e, he, e', hq, hd⟩ := (grouped_eq_some hs).mp h
    have h₁ := he.size_lt
    have h₂ := e.size_skip_le
    obtain ⟨p, hp, hpasses⟩ := (ih e.skip (skip_skip e) (by omega)).expression hq
    exact ⟨.grouped p, hp, Nat.le_refl 7, .step he (.trans (.layout hpasses) (.layout hd.passes))⟩

theorem moreCalls_sound {n : Nat} {c d : Cursor} {ps : List Piece} (ih : SoundBelow n)
    (hc : c.size ≤ n) (callee : Phrase) (hcallee : callee.WellFormed)
    (hrank : 6 ≤ callee.precedence) (h : c.moreCalls.outcome = some (ps, d)) :
    ∃ p : Phrase, ∃ ts, p.WellFormed ∧ 6 ≤ p.precedence ∧ p.tokens = callee.tokens ++ ts ∧
      Passes c ts d := by
  obtain ⟨qs, e, hq, rs, hr, rfl⟩ | ⟨-, rfl, rfl⟩ := moreCalls_eq_some.mp h
  · have h₁ := c.size_skip_le
    have h₂ := size_lt_of_outcome hq
    obtain ⟨args, hargs, hpasses⟩ := arguments_sound ih (skip_skip c) (by omega) hq
    obtain ⟨p, ts, hp, hprec, htokens, hmore⟩ := moreCalls_sound ih (by omega)
      (.call callee args) ⟨hcallee, hrank, hargs⟩ (Nat.le_refl 6) hr
    refine ⟨p, _, hp, hprec, ?_, .layout (hpasses.trans hmore)⟩
    rw [htokens, Phrase.tokens, List.append_assoc]
  · exact ⟨callee, [], hcallee, hrank, (List.append_nil _).symm, .refl _⟩
termination_by c.size

theorem call_sound {n : Nat} {c d : Cursor} {ps : List Piece} (ih : SoundBelow n)
    (hs : c.skip = c) (hc : c.size ≤ n) (h : c.call.outcome = some (ps, d)) :
    ∃ p : Phrase, p.WellFormed ∧ 6 ≤ p.precedence ∧ Passes c p.tokens d := by
  obtain ⟨qs, e, hq, rs, hr, -⟩ := call_eq_some.mp h
  have h₁ := size_skip_lt_of_outcome hq
  obtain ⟨callee, hcallee, hrank, hfirst⟩ := primary_sound ih hs hc hq
  obtain ⟨p, ts, hp, hprec, htokens, hmore⟩ :=
    moreCalls_sound ih (by omega) callee hcallee (by omega) hr
  refine ⟨p, hp, hprec, ?_⟩
  rw [htokens]
  exact hfirst.trans (.layout hmore)

/-- The signs before an operand. The last one may be the first half of `!=`. -/
theorem signs_sound {c d : Cursor} {ps : List Piece} (h : c.signs.outcome = some (ps, d)) :
    (∃ ops : List UnaryOp, Passes c (ops.map UnaryOp.token) d) ∨
      (∃ (ops : List UnaryOp) (e f : Cursor), Passes c (ops.map UnaryOp.token) e ∧
        Steps e .notEqual f ∧ d = e.advance 1) ∧ d.rest.head? = some '=' := by
  obtain ⟨qs, e, hq, rs, hr, rfl⟩ | ⟨-, rfl, rfl⟩ := signs_eq_some.mp h
  · have h₁ := c.size_skip_le
    have h₂ := size_lt_of_outcome hq
    obtain ⟨op, hop⟩ | ⟨⟨f, hf⟩, hhalf⟩ := steps_of_sign (skip_skip c) hq
    · have hpast : Passes c [op.token] e := .layout hop.passes
      obtain ⟨ops, hops⟩ | ⟨⟨ops, e', f, hops, hplace⟩, hhalf⟩ := signs_sound hr
      · exact .inl ⟨op :: ops, hpast.trans hops⟩
      · exact .inr ⟨⟨op :: ops, e', f, hpast.trans hops, hplace⟩, hhalf⟩
    -- The other half is no sign, so nothing more is read here.
    · obtain ⟨hsettled, -⟩ := steps_of_half hhalf
      obtain ⟨_, _, hsome, -⟩ | ⟨-, -, rfl⟩ := signs_eq_some.mp hr
      · rw [hsettled, sign_eq_none_of_half hhalf] at hsome
        cases hsome
      · exact .inr ⟨⟨[], c.skip, f, .layout (.refl _), hf, eq_advance_of_sign hq⟩, hhalf⟩
  · exact .inl ⟨[], .refl _⟩
termination_by c.size

theorem unary_sound {n : Nat} {c d : Cursor} {ps : List Piece} (ih : SoundBelow n)
    (hc : c.size ≤ n) (h : c.unary.outcome = some (ps, d)) :
    ∃ p : Phrase, p.WellFormed ∧ 5 ≤ p.precedence ∧ Passes c p.tokens d := by
  obtain ⟨qs, e, hsigns, rs, hcall, -⟩ := unary_eq_some.mp h
  have h₁ := size_skip_lt_of_outcome hsigns
  obtain ⟨p, hp, hprec, hpasses⟩ := call_sound ih (skip_skip e) (by omega) hcall
  obtain ⟨ops, hops⟩ | ⟨-, hhalf⟩ := signs_sound hsigns
  · obtain ⟨hsigned, hrank⟩ := p.wellFormed_signed ops hp (by omega)
    refine ⟨_, hsigned, hrank, ?_⟩
    rw [Phrase.tokens_signed]
    exact hops.trans (.layout hpasses)
  · exact absurd hpasses (not_passes_of_half hhalf)

theorem moreOperands_sound {n : Nat} {c d : Cursor} {l : Level} {ps : List Piece}
    (ih : SoundBelow n) (hc : c.size ≤ n) (left : Phrase) (hleft : left.WellFormed)
    (hrank : l.rank ≤ left.precedence) (h : (c.moreOperands l).outcome = some (ps, d)) :
    ∃ p : Phrase, ∃ ts, p.WellFormed ∧ l.rank ≤ p.precedence ∧ p.tokens = left.tokens ++ ts ∧
      Passes c ts d := by
  obtain ⟨qs, e, hq, rs, e', hr, us, hu, rfl⟩ | ⟨-, rfl, rfl⟩ := moreOperands_eq_some.mp h
  · obtain ⟨op, rfl, -, hop⟩ := (operator_eq_some (skip_skip c)).mp hq
    have h₁ := c.size_skip_le
    have h₂ := hop.size_lt
    have h₃ := e.size_skip_le
    have h₄ := size_lt_of_outcome hr
    obtain ⟨right, hright, hlt, hpasses⟩ :=
      (ih e.skip (skip_skip e) (by omega)).tighterOperand op.level hr
    obtain ⟨p, ts, hp, hprec, htokens, hmore⟩ := moreOperands_sound ih (by omega)
      (.binary left op right) ⟨hleft, hright, hrank, hlt⟩ (Nat.le_refl _) hu
    refine ⟨p, _, hp, hprec, ?_, .layout (.step hop (.layout (hpasses.trans hmore)))⟩
    rw [htokens, Phrase.tokens, List.append_assoc, List.cons_append]
  · exact ⟨left, [], hleft, hrank, (List.append_nil _).symm, .refl _⟩
termination_by c.size

theorem operand_sound {n : Nat} {c d : Cursor} (l : Level) {ps : List Piece} (ih : SoundBelow n)
    (hc : c.size ≤ n)
    (hl : ∀ {d ps}, (c.tighterOperand l).outcome = some (ps, d) →
      ∃ p : Phrase, p.WellFormed ∧ l.rank < p.precedence ∧ Passes c p.tokens d)
    (h : (c.operand l).outcome = some (ps, d)) :
    ∃ p : Phrase, p.WellFormed ∧ l.rank ≤ p.precedence ∧ Passes c p.tokens d := by
  obtain ⟨qs, e, hq, rs, hr, -⟩ := operand_eq_some.mp h
  have h₁ := size_skip_lt_of_outcome hq
  obtain ⟨left, hleft, hrank, hfirst⟩ := hl hq
  obtain ⟨p, ts, hp, hprec, htokens, hmore⟩ :=
    moreOperands_sound ih (by omega) left hleft (by omega) hr
  refine ⟨p, hp, hprec, ?_⟩
  rw [htokens]
  exact hfirst.trans (.layout hmore)

theorem tighterOperand_sound {n : Nat} {c d : Cursor} (l : Level) {ps : List Piece}
    (ih : SoundBelow n) (hc : c.size ≤ n) (h : (c.tighterOperand l).outcome = some (ps, d)) :
    ∃ p : Phrase, p.WellFormed ∧ l.rank < p.precedence ∧ Passes c p.tokens d := by
  cases ht : l.tighter? with
  | none =>
      rw [tighterOperand_of_none ht] at h
      rw [Level.rank_of_tighter_none ht]
      exact unary_sound ih hc h
  | some t =>
      have hrank := Level.rank_tighter ht
      rw [tighterOperand_of_some ht] at h
      obtain ⟨p, hp, hprec, hpasses⟩ := operand_sound t ih hc (tighterOperand_sound t ih hc) h
      exact ⟨p, hp, by omega, hpasses⟩
termination_by 4 - l.rank
decreasing_by
  have := t.rank_le
  omega

theorem expression_sound {n : Nat} {c d : Cursor} {ps : List Piece} (ih : SoundBelow n)
    (hc : c.size ≤ n) (h : c.expression.outcome = some (ps, d)) :
    ∃ p : Phrase, p.WellFormed ∧ Passes c p.tokens d := by
  obtain ⟨qs, hq, -⟩ := expression_eq_some.mp h
  obtain ⟨p, hp, -, hpasses⟩ :=
    operand_sound .equality ih hc (tighterOperand_sound .equality ih hc) hq
  exact ⟨p, hp, hpasses⟩

/-- A statement without a semicolon stops where the expression at its end does. -/
theorem Ends.stops {n : Nat} {c d e : Cursor} {ended : Bool} {ps : List Piece}
    (h : Ends d.skip ended e) (hc : c.expression.outcome = some (ps, d))
    (hn : c.expression.furthest ≤ n) : ended = true ∨ StopsBy 1 n e := by
  cases h with
  | ended _ => exact .inl rfl
  | unended _ => exact .inr ((stopsBy_of_expression hc).mono hn).skip

theorem letStatement_sound {n : Nat} {c d : Cursor} {ps : List Piece} (ih : SoundBelow n)
    (hs : c.skip = c) (hc : c.size ≤ n) (h : c.letStatement.outcome = some (ps, d)) :
    ReadsClause c d c.letStatement.furthest := by
  obtain ⟨e, he, qs, e₁, hq, e₂, h₂, rs, e₃, hr, ⟨ended, hd⟩, -⟩ := (letStatement_eq_some hs).mp h
  have l₁ := he.size_lt
  have l₂ := e.size_skip_le
  have l₃ := size_skip_lt_of_outcome hq
  have l₄ := size_skip_lt_of_outcome h₂
  obtain ⟨name, -, hname⟩ := (identifier_eq_some (skip_skip e)).mp hq
  obtain ⟨p, hp, hpasses⟩ := (ih e₂.skip (skip_skip e₂) (by omega)).expression hr
  have hkeyword : (c.keyword .letKeyword .letWord).outcome = some (_, e) :=
    (keyword_eq_some hs).mpr ⟨rfl, he⟩
  have hvalue : e₂.skip.expression.furthest ≤ c.letStatement.furthest := by
    rw [letStatement]
    exact le_furthest_named_andThen hkeyword
      (le_furthest_andMore hq (le_furthest_andMore h₂ furthest_le_andMore))
  obtain hassign | ⟨-, hhalf⟩ := steps_of_assign (skip_skip e₁) h₂
  · refine ⟨.binding name p ended, hp, ?_, hd.stops hr hvalue⟩
    exact .step he (.layout (.step hname (.layout (.step hassign
      (.trans (.layout hpasses) (.layout hd.passes))))))
  -- The first half of `==` leaves an `=` behind, and no value begins with that.
  · exact absurd hpasses (not_passes_of_half hhalf)

theorem returnStatement_sound {n : Nat} {c d : Cursor} {ps : List Piece} (ih : SoundBelow n)
    (hs : c.skip = c) (hc : c.size ≤ n) (h : c.returnStatement.outcome = some (ps, d)) :
    ReadsClause c d c.returnStatement.furthest := by
  obtain ⟨e, he, qs, e₁, hq, ⟨ended, hd⟩, -⟩ := (returnStatement_eq_some hs).mp h
  have l₁ := he.size_lt
  have l₂ := e.size_skip_le
  obtain ⟨p, hp, hpasses⟩ := (ih e.skip (skip_skip e) (by omega)).expression hq
  have hkeyword : (c.keyword .returnKeyword .returnWord).outcome = some (_, e) :=
    (keyword_eq_some hs).mpr ⟨rfl, he⟩
  have hvalue : e.skip.expression.furthest ≤ c.returnStatement.furthest := by
    rw [returnStatement]
    exact le_furthest_named_andThen hkeyword furthest_le_andMore
  refine ⟨.returning p ended, hp, ?_, hd.stops hq hvalue⟩
  exact .step he (.trans (.layout hpasses) (.layout hd.passes))

theorem expressionStatement_sound {n : Nat} {c d : Cursor} {ps : List Piece} (ih : SoundBelow n)
    (hc : c.size ≤ n) (h : c.expressionStatement.outcome = some (ps, d)) :
    ReadsClause c d c.expressionStatement.furthest := by
  obtain ⟨qs, e, hq, ⟨ended, hd⟩, -⟩ := expressionStatement_eq_some.mp h
  obtain ⟨p, hp, hpasses⟩ := expression_sound ih hc hq
  have hvalue : c.expression.furthest ≤ c.expressionStatement.furthest := by
    rw [expressionStatement]
    exact Nat.le_trans furthest_le_andMore (furthest_le_named _ _ _)
  exact ⟨.expression p ended, hp, hpasses.trans (.layout hd.passes), hd.stops hq hvalue⟩

theorem statement_sound {n : Nat} {c d : Cursor} {ps : List Piece} (ih : SoundBelow n)
    (hs : c.skip = c) (hc : c.size ≤ n) (h : c.statement.outcome = some (ps, d)) :
    ReadsClause c d c.statement.furthest := by
  rw [statement] at h ⊢
  simp only [outcome_orElse, Option.or_eq_some_iff] at h
  obtain h | ⟨hlet, h | ⟨hreturn, h⟩⟩ := h
  · exact (letStatement_sound ih hs hc h).mono furthest_le_orElse
  · exact (returnStatement_sound ih hs hc h).mono
      (le_furthest_orElse hlet furthest_le_orElse)
  · exact (expressionStatement_sound ih hc h).mono
      (le_furthest_orElse hlet (le_furthest_orElse hreturn (Nat.le_refl _)))

theorem sound (c : Cursor) (hs : c.skip = c) : Sound c := by
  have ih : SoundBelow c.size := fun d hd _ => sound d hd
  constructor
  · exact expression_sound ih (Nat.le_refl _)
  · exact fun l => tighterOperand_sound l ih (Nat.le_refl _)
  · exact statement_sound ih hs (Nat.le_refl _)
termination_by c.size

theorem soundBelow (n : Nat) : SoundBelow n := fun c hs _ => sound c hs

theorem exists_clauses_of_program {c d : Cursor} {ps : List Piece}
    (h : c.program.outcome = some (ps, d)) :
    ∃ cs, ClausesWellFormed cs ∧ c.tokens = clauseTokens cs := by
  obtain ⟨qs, e, hq, hend, -, -⟩ := program_eq_some.mp h
  obtain ⟨cs, hcs, hpasses, -⟩ := statements_sound (soundBelow _) c.skip.size_lt_succ hq
  refine ⟨cs, hcs, ?_⟩
  rw [← tokens_skip, hpasses.tokens_eq, ← tokens_skip e, tokens, hend, tokensOf_nil,
    List.append_nil]

end Cursor
end MonkeyLang
