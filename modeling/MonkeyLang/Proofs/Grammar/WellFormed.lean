import MonkeyLang.Grammar.Phrase

/-!
Which phrases can be read back from their tokens. An operand binds tighter than its operator asks
for, and a statement without a semicolon is not followed by a token that would continue it. What
matters about the tokens around a phrase is which of them can begin one and which can go on one.
-/
namespace MonkeyLang

/-- Whether a phrase can begin with the token. -/
def Token.startsPhrase : Token → Bool
  | keyword k => k = .fnWord || k = .ifWord || k = .trueWord || k = .falseWord
  | name _ | numeral _ => true
  | equal | notEqual => false
  | symbol c => c = '(' || c = '!' || c = '-'

/-- Whether a clause can begin with the token. -/
def Token.startsClause (t : Token) : Bool :=
  t.startsPhrase || t = keyword .letWord || t = keyword .returnWord

/-- Whether the token that begins a phrase can also go on the phrase before it. -/
def Token.joins (t : Token) : Bool := t = symbol '(' || t = symbol '-'

/-- Whether the token goes on a phrase that is read at a rank. -/
def Token.Continues (rank : Nat) (t : Token) : Prop :=
  (t = symbol '(' ∧ rank ≤ 6) ∨ t = keyword .elseWord ∨
    ∃ op : BinaryOp, op.token = t ∧ rank ≤ op.level.rank

/-- No token that comes next goes on a phrase. -/
def Closed (rank : Nat) (ts : List Token) : Prop := ∀ t ∈ ts.head?, ¬ t.Continues rank

mutual

def Phrase.WellFormed : Phrase → Prop
  | .name _ | .numeral _ | .boolean _ => True
  | .grouped inner => inner.WellFormed
  | .unary _ operand => operand.WellFormed ∧ 5 ≤ operand.precedence
  | .binary left op right =>
      left.WellFormed ∧ right.WellFormed ∧
        op.level.rank ≤ left.precedence ∧ op.level.rank < right.precedence
  | .conditional test yes none => test.WellFormed ∧ ClausesWellFormed yes
  | .conditional test yes (some no) =>
      test.WellFormed ∧ ClausesWellFormed yes ∧ ClausesWellFormed no
  | .function _ body => ClausesWellFormed body
  | .call callee args => callee.WellFormed ∧ 6 ≤ callee.precedence ∧ PhrasesWellFormed args

def Clause.WellFormed : Clause → Prop
  | .binding _ value _ | .returning value _ | .expression value _ => value.WellFormed

def ClausesWellFormed : List Clause → Prop
  | [] => True
  | c :: cs =>
      c.WellFormed ∧ (c.ended = true ∨ (clauseTokens cs).head?.any Token.joins = false) ∧
        ClausesWellFormed cs

def PhrasesWellFormed : List Phrase → Prop
  | [] => True
  | p :: ps => p.WellFormed ∧ PhrasesWellFormed ps

end

/-- A phrase behind some unary operators. -/
def Phrase.signed (p : Phrase) (ops : List UnaryOp) : Phrase := ops.foldr .unary p

theorem Phrase.tokens_signed (p : Phrase) (ops : List UnaryOp) :
    (p.signed ops).tokens = ops.map UnaryOp.token ++ p.tokens := by
  induction ops with
  | nil => rfl
  | cons op ops ih =>
      change op.token :: (p.signed ops).tokens = _
      rw [ih, List.map_cons, List.cons_append]

theorem Phrase.toExpression_signed (p : Phrase) (ops : List UnaryOp) :
    (p.signed ops).toExpression = ops.foldr .unary p.toExpression := by
  induction ops with
  | nil => rfl
  | cons op ops ih =>
      change Expression.unary op (p.signed ops).toExpression = _
      rw [ih, List.foldr_cons]

theorem Phrase.wellFormed_signed (p : Phrase) (ops : List UnaryOp) (hp : p.WellFormed)
    (hprec : 5 ≤ p.precedence) : (p.signed ops).WellFormed ∧ 5 ≤ (p.signed ops).precedence := by
  induction ops with
  | nil => exact ⟨hp, hprec⟩
  | cons op ops ih => exact ⟨ih, Nat.le_refl 5⟩

theorem Phrase.exists_tokens_eq : (p : Phrase) → ∃ t ts, p.tokens = t :: ts ∧ t.startsPhrase = true
  | .name _ | .numeral _ => ⟨_, _, rfl, rfl⟩
  | .boolean value => ⟨_, _, rfl, by cases value <;> rfl⟩
  | .grouped _ | .conditional _ _ none | .conditional _ _ (some _) | .function _ _ =>
      ⟨_, _, rfl, rfl⟩
  | .unary op operand => ⟨op.token, operand.tokens, rfl, by cases op <;> rfl⟩
  | .binary left op right => by
      obtain ⟨t, ts, h, ht⟩ := left.exists_tokens_eq
      exact ⟨t, ts ++ op.token :: right.tokens, by rw [tokens, h, List.cons_append], ht⟩
  | .call callee args => by
      obtain ⟨t, ts, h, ht⟩ := callee.exists_tokens_eq
      exact ⟨t, ts ++ parenthesized (separated (phraseTokens args)),
        by rw [tokens, h, List.cons_append], ht⟩

theorem Phrase.exists_tokens_eq_of_call : (p : Phrase) → p.WellFormed → 6 ≤ p.precedence →
    ∃ t ts, p.tokens = t :: ts ∧ t.startsPhrase = true ∧ ∀ op : UnaryOp, op.token ≠ t
  | .name _, _, _ | .numeral _, _, _ | .grouped _, _, _ | .conditional _ _ none, _, _
  | .conditional _ _ (some _), _, _ | .function _ _, _, _ =>
      ⟨_, _, rfl, rfl, by intro op; cases op <;> simp [UnaryOp.token]⟩
  | .boolean value, _, _ =>
      ⟨_, _, rfl, by cases value <;> rfl, by intro op; cases op <;> simp [UnaryOp.token]⟩
  | .unary _ _, _, hprec => by
      simp only [precedence] at hprec
      omega
  | .binary _ op _, _, hprec => by
      have := op.level.rank_le
      simp only [precedence] at hprec
      omega
  | .call callee args, hp, _ => by
      obtain ⟨t, ts, h, ht⟩ := callee.exists_tokens_eq_of_call hp.1 hp.2.1
      exact ⟨t, ts ++ parenthesized (separated (phraseTokens args)),
        by rw [tokens, h, List.cons_append], ht⟩

theorem Token.startsClause_of_startsPhrase {t : Token} (h : t.startsPhrase = true) :
    t.startsClause = true := by
  simp [startsClause, h]

theorem Clause.exists_tokens_eq (c : Clause) :
    ∃ t ts, c.tokens = t :: ts ∧ t.startsClause = true := by
  cases c with
  | binding name value ended => exact ⟨_, _, rfl, rfl⟩
  | returning value ended => exact ⟨_, _, rfl, rfl⟩
  | expression value ended =>
      obtain ⟨t, ts, h, ht⟩ := value.exists_tokens_eq
      exact ⟨t, ts ++ ending ended, by rw [tokens, h, List.cons_append],
        Token.startsClause_of_startsPhrase ht⟩

theorem Closed.mono {r s : Nat} {ts : List Token} (h : Closed r ts) (hrs : r ≤ s) :
    Closed s ts := by
  rintro t ht (⟨hparen, hs⟩ | helse | ⟨op, hop, hs⟩)
  · exact h t ht (.inl ⟨hparen, Nat.le_trans hrs hs⟩)
  · exact h t ht (.inr (.inl helse))
  · exact h t ht (.inr (.inr ⟨op, hop, Nat.le_trans hrs hs⟩))

theorem closed_nil (r : Nat) : Closed r [] := by
  intro t ht
  cases ht

theorem closed_cons {r : Nat} {t : Token} (ts : List Token) (h : ¬ t.Continues r) :
    Closed r (t :: ts) := by
  intro u hu
  cases hu
  exact h

/-- Behind the marks that end a phrase. -/
theorem closed_mark {r : Nat} {ch : Char} (ts : List Token)
    (h : ch ∈ [')', ',', ';', '}'] := by decide) : Closed r (.symbol ch :: ts) := by
  apply closed_cons
  rintro (⟨hparen, -⟩ | helse | ⟨op, hop, -⟩)
  · cases hparen
    exact absurd h (by decide)
  · cases helse
  · cases op <;> cases hop <;> exact absurd h (by decide)

theorem closed_paren (ts : List Token) : Closed 7 (.symbol '(' :: ts) := by
  apply closed_cons
  rintro (⟨-, hr⟩ | helse | ⟨op, -, hr⟩)
  · omega
  · cases helse
  · have := op.level.rank_le
    omega

theorem closed_operator {r : Nat} {op : BinaryOp} (ts : List Token) (h : op.level.rank < r) :
    Closed r (op.token :: ts) := by
  apply closed_cons
  rintro (⟨hparen, -⟩ | helse | ⟨op', hop, hr⟩)
  · cases op <;> cases hparen
  · cases op <;> cases helse
  · have heq : op' = op := by
      revert hop
      cases op <;> cases op' <;> decide
    rw [heq] at hr
    omega

theorem closed_clause {r : Nat} {t : Token} (ts : List Token) (h : t.startsClause = true)
    (hj : t.joins = false) : Closed r (t :: ts) := by
  apply closed_cons
  rintro (⟨hparen, -⟩ | helse | ⟨op, hop, -⟩)
  · rw [hparen] at hj
    exact absurd hj (by decide)
  · rw [helse] at h
    exact absurd h (by decide)
  · cases op <;> cases hop <;> first | exact absurd h (by decide) | exact absurd hj (by decide)

theorem Closed.of_clauses {r : Nat} {cs : List Clause} {ts : List Token} (hts : Closed r ts)
    (h : (clauseTokens cs).head?.any Token.joins = false) : Closed r (clauseTokens cs ++ ts) := by
  cases cs with
  | nil => exact hts
  | cons c cs =>
      obtain ⟨t, us, hc, ht⟩ := c.exists_tokens_eq
      rw [clauseTokens, hc, List.cons_append] at h ⊢
      exact closed_clause _ ht h

end MonkeyLang
