import MonkeyLang.Proofs.Grammar.Soundness
import MonkeyLang.Proofs.Grammar.Tree

/-!
Phrases that are read as themselves: the pieces that are found are a trace of the phrase, and the
phrase stops where it should because the token behind it does not go on it. Chains of operators and
of arguments lean to the left, while they are read from the left, so they are followed with what is
still to be read.
-/
namespace MonkeyLang
namespace Cursor

open Reading

/-- What the rule of a rank finds; rank zero is the rule for any expression. -/
def readAt (c : Cursor) : Nat → Option (List Piece × Cursor)
  | 0 => c.expression.outcome
  | 1 => (c.operand .equality).outcome
  | 2 => (c.operand .comparison).outcome
  | 3 => (c.operand .sum).outcome
  | 4 => (c.operand .product).outcome
  | 5 => c.unary.outcome
  | 6 => c.call.outcome
  | _ => c.primary.outcome

theorem readAt_rank (c : Cursor) (l : Level) : c.readAt l.rank = (c.operand l).outcome := by
  cases l <;> rfl

theorem readAt_rank_succ (c : Cursor) (l : Level) :
    c.readAt (l.rank + 1) = (c.tighterOperand l).outcome := by
  cases h : l.tighter? with
  | none => rw [Level.rank_of_tighter_none h, tighterOperand_of_none h, readAt]
  | some t => rw [← Level.rank_tighter h, tighterOperand_of_some h, readAt_rank]

end Cursor

open Cursor Reading

/-- The phrase is read at a rank wherever its tokens stand with nothing behind them that goes on
it. -/
def Readable (rank : Nat) (p : Phrase) : Prop :=
  ∀ (c : Cursor) (ts : List Token), c.skip = c → c.tokens = p.tokens ++ ts → Closed rank ts →
    ∃ ps d, c.readAt rank = some (ps, d) ∧ Passes c p.tokens d ∧ Tree (.phrase rank p) ps

/-- The phrase is read as the first operands of a level, whatever operators follow. -/
def Chained (l : Level) (p : Phrase) : Prop :=
  ∀ (c : Cursor) (ts : List Token), c.skip = c → c.tokens = p.tokens ++ ts →
    Closed (l.rank + 1) ts →
    ∃ ps d, Passes c p.tokens d ∧ Tree (.operands l p) ps ∧
      ∀ qs e, (d.moreOperands l).outcome = some (qs, e) →
        (c.operand l).outcome = some ([.mk l.rule (c.upTo e) (ps ++ qs)], e)

/-- The phrase is read as a callee, whatever arguments follow. -/
def Called (p : Phrase) : Prop :=
  ∀ (c : Cursor) (ts : List Token), c.skip = c → c.tokens = p.tokens ++ ts → Closed 7 ts →
    ∃ ps d, Passes c p.tokens d ∧ Tree (.calls p) ps ∧
      ∀ qs e, d.moreCalls.outcome = some (qs, e) →
        c.call.outcome = some ([.mk .call (c.upTo e) (ps ++ qs)], e)

/-- The arguments are read between their parentheses. -/
def ItemsReadable (args : List Phrase) : Prop :=
  ∀ (c : Cursor) (ts : List Token), c.skip = c →
    c.tokens = parenthesized (separated (phraseTokens args)) ++ ts →
    ∃ ps d, c.arguments.outcome = some ([.mk .arguments (c.upTo d) ps], d) ∧
      Passes c (parenthesized (separated (phraseTokens args))) d ∧ Tree (.items args) ps

theorem chained_of_readable {l : Level} {p : Phrase} (h : Readable (l.rank + 1) p) :
    Chained l p := by
  intro c ts hs hc hts
  obtain ⟨ps, d, hread, hpasses, htree⟩ := h c ts hs hc hts
  rw [readAt_rank_succ] at hread
  exact ⟨ps, d.skip, hpasses.skip, .operand htree, fun qs e hmore =>
    operand_eq_some.mpr ⟨ps, d, hread, qs, hmore, rfl⟩⟩

theorem chained_binary {p q : Phrase} {op : BinaryOp} (hp : Chained op.level p)
    (hq : Readable (op.level.rank + 1) q) : Chained op.level (.binary p op q) := by
  intro c ts hs hc hts
  rw [Phrase.tokens, List.append_assoc, List.cons_append] at hc
  obtain ⟨ps, d, hpasses, htree, hmore⟩ := hp c _ hs hc (closed_operator _ (Nat.lt_succ_self _))
  have hd := hpasses.rest_tokens hc
  obtain ⟨e, hop, he⟩ := exists_steps (skip_skip d) hd
  obtain ⟨qs, f, hread, hright, hqs⟩ := hq e.skip ts (skip_skip e) he hts
  rw [readAt_rank_succ] at hread
  refine ⟨ps ++ op.piece :: qs, f, ?_, .operation htree hqs, fun rs g hrs => ?_⟩
  · exact hpasses.trans (.layout (.step hop (.layout hright)))
  · have hoperator := (operator_eq_some (skip_skip d)).mpr ⟨op, rfl, rfl, hop⟩
    have hrest := moreOperands_eq_some.mpr (.inl ⟨_, e, hoperator, qs, f, hread, rs, hrs, rfl⟩)
    rw [hmore _ g hrest, List.append_assoc]
    rfl

theorem readable_of_chained {l : Level} {p : Phrase} (h : Chained l p) : Readable l.rank p := by
  intro c ts hs hc hts
  obtain ⟨ps, d, hpasses, htree, hmore⟩ := h c ts hs hc (hts.mono (Nat.le_succ _))
  have hstay : (d.moreOperands l).outcome = some ([], d) := by
    refine moreOperands_eq_some.mpr (.inr ⟨fun qs e hop => ?_, rfl, rfl⟩)
    obtain ⟨op, rfl, -, hstep⟩ := (operator_eq_some (skip_skip d)).mp hop
    have hhead := hstep.tokens_eq
    rw [hpasses.rest_tokens hc] at hhead
    exact absurd (.inr (.inr ⟨op, rfl, Nat.le_refl _⟩)) (hts op.token (by rw [hhead]; rfl))
  refine ⟨_, d, ?_, hpasses, .level hpasses.tokensOf_upTo htree⟩
  rw [readAt_rank, hmore [] d hstay, List.append_nil]

theorem readable_expression {p : Phrase} (h : Readable 1 p) : Readable 0 p := by
  intro c ts hs hc hts
  obtain ⟨ps, d, hread, hpasses, htree⟩ := h c ts hs hc (hts.mono (Nat.zero_le 1))
  exact ⟨_, d, expression_eq_some.mpr ⟨ps, hread, rfl⟩, hpasses,
    .expression hpasses.tokensOf_upTo htree⟩

theorem called_of_readable {p : Phrase} (h : Readable 7 p) : Called p := by
  intro c ts hs hc hts
  obtain ⟨ps, d, hread, hpasses, htree⟩ := h c ts hs hc hts
  exact ⟨ps, d.skip, hpasses.skip, .callee htree, fun qs e hmore =>
    call_eq_some.mpr ⟨ps, d, hread, qs, hmore, rfl⟩⟩

theorem called_call {p : Phrase} {args : List Phrase} (hp : Called p) (hargs : ItemsReadable args) :
    Called (.call p args) := by
  intro c ts hs hc hts
  rw [Phrase.tokens, List.append_assoc] at hc
  obtain ⟨ps, d, hpasses, htree, hmore⟩ := hp c _ hs hc (closed_paren _)
  have hd := hpasses.rest_tokens hc
  obtain ⟨qs, e, hread, hlist, hqs⟩ := hargs d.skip ts (skip_skip d) hd
  refine ⟨_, e, hpasses.trans (.layout hlist), .call (d.skip.upTo e) htree hqs,
    fun rs f hrs => ?_⟩
  have hrest := moreCalls_eq_some.mpr (.inl ⟨_, e, hread, rs, hrs, rfl⟩)
  rw [hmore _ f hrest, List.append_assoc]

theorem arguments_eq_none {c : Cursor} {ts : List Token} (hs : c.skip = c) (hc : c.tokens = ts)
    (hts : Closed 6 ts) : c.arguments.outcome = none := by
  rw [Option.eq_none_iff_forall_ne_some]
  rintro ⟨ps, e⟩ h
  obtain ⟨d, hd, -⟩ := (arguments_eq_some hs).mp h
  have hhead := hd.tokens_eq
  rw [hc] at hhead
  exact absurd (.inl ⟨rfl, Nat.le_refl 6⟩) (hts _ (by rw [hhead]; rfl))

theorem readable_of_called {p : Phrase} (h : Called p) : Readable 6 p := by
  intro c ts hs hc hts
  obtain ⟨ps, d, hpasses, htree, hmore⟩ := h c ts hs hc (hts.mono (Nat.le_succ 6))
  have hd := hpasses.rest_tokens hc
  have hstay : d.moreCalls.outcome = some ([], d) :=
    moreCalls_eq_some.mpr (.inr ⟨arguments_eq_none (skip_skip d) hd hts, rfl, rfl⟩)
  refine ⟨_, d, ?_, hpasses, .called hpasses.tokensOf_upTo htree⟩
  rw [readAt, hmore [] d hstay, List.append_nil]

theorem exists_signs {c : Cursor} {t : Token} {ts : List Token} (ops : List UnaryOp)
    (hc : c.skip.tokens = ops.map UnaryOp.token ++ t :: ts) (hop : ∀ op : UnaryOp, op.token ≠ t)
    (ht : t ≠ .notEqual) :
    ∃ d, c.signs.outcome = some (ops.map UnaryOp.piece, d) ∧
      Passes c (ops.map UnaryOp.token) d := by
  induction ops generalizing c with
  | nil =>
      obtain ⟨d, hd, -⟩ := exists_steps (skip_skip c) hc
      exact ⟨c, signs_eq_some.mpr (.inr ⟨hd.sign_eq_none hop ht, rfl, rfl⟩), .refl c⟩
  | cons op ops ih =>
      obtain ⟨d, hd, hrest⟩ := exists_steps (skip_skip c) hc
      obtain ⟨e, hsigns, hpasses⟩ := ih hrest
      exact ⟨e, signs_eq_some.mpr (.inl ⟨_, d, hd.sign, _, hsigns, rfl⟩),
        .layout (.step hd hpasses)⟩

theorem readable_signed {p : Phrase} (ops : List UnaryOp) (hp : p.WellFormed)
    (hprec : 6 ≤ p.precedence) (h : Readable 6 p) : Readable 5 (p.signed ops) := by
  intro c ts hs hc hts
  obtain ⟨t, us, hus, hstart, hop⟩ := p.exists_tokens_eq_of_call hp hprec
  have hne : t ≠ .notEqual := by
    rintro rfl
    cases hstart
  rw [Phrase.tokens_signed, List.append_assoc] at hc
  have hhead := hc
  rw [hus, List.cons_append, ← tokens_skip] at hhead
  obtain ⟨d, hsigns, hpasses⟩ := exists_signs ops hhead hop hne
  have hd := hpasses.rest_tokens hc
  obtain ⟨ps, e, hread, hoperand, htree⟩ := h d.skip ts (skip_skip d) hd (hts.mono (Nat.le_succ 5))
  have hall : Passes c (p.signed ops).tokens e := by
    rw [Phrase.tokens_signed]
    exact hpasses.trans (.layout hoperand)
  exact ⟨_, e, unary_eq_some.mpr ⟨_, d, hsigns, ps, hread, rfl⟩, hall,
    .signed ops hall.tokensOf_upTo htree⟩

end MonkeyLang
