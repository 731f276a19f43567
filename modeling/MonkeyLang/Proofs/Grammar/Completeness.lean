import MonkeyLang.Proofs.Grammar.Primaries

/-!
Every well-formed phrase is read from its tokens, whatever the layout between them, and read as
itself.
-/
namespace MonkeyLang

open Cursor Reading

/-- The statement is read with its semicolon, or with nothing behind it that goes on it. -/
def ClauseReadable (cl : Clause) : Prop :=
  ∀ (c : Cursor) (ts : List Token), c.skip = c → c.tokens = cl.tokens ++ ts →
    (cl.ended = true ∨ Closed 0 ts ∧ ts.head? ≠ some (.symbol ';')) →
    ∃ ps d, c.statement.outcome = some (ps, d) ∧ Passes c cl.tokens d ∧ Tree (.clause cl) ps

/-- The statements are read up to the end of their block or of the text. -/
def ClausesReadable (cs : List Clause) : Prop :=
  ∀ (c : Cursor) (ts : List Token), c.tokens = clauseTokens cs ++ ts →
    (∀ t ∈ ts.head?, t = .symbol '\x7d') →
    ∃ ps d, c.statements.outcome = some (ps, d) ∧ Passes c (clauseTokens cs) d ∧
      Tree (.clauses cs) ps

theorem exists_ends (c : Cursor) (ended : Bool) {ts : List Token}
    (hc : c.skip.tokens = ending ended ++ ts)
    (hts : ended = true ∨ ts.head? ≠ some (.symbol ';')) :
    ∃ d, Ends c.skip ended d ∧ Passes c (ending ended) d := by
  cases ended with
  | true =>
      obtain ⟨d, hd, -⟩ := exists_steps (skip_skip c) hc
      exact ⟨d, .ended hd, .layout hd.passes⟩
  | false =>
      refine ⟨c.skip, .unended fun d hd => ?_, (Passes.refl c).skip⟩
      have hhead := hd.tokens_eq
      rw [hc] at hhead
      exact hts.resolve_left Bool.false_ne_true (congrArg List.head? hhead)

theorem closed_ending {ended : Bool} {ts : List Token}
    (h : ended = true ∨ Closed 0 ts ∧ ts.head? ≠ some (.symbol ';')) :
    Closed 0 (ending ended ++ ts) := by
  cases ended with
  | true => exact closed_mark ts
  | false => exact (h.resolve_left Bool.false_ne_true).1

theorem clauseReadable_binding (name : String) {p : Phrase} (ended : Bool) (h : Readable 0 p) :
    ClauseReadable (.binding name p ended) := by
  intro c ts hs hc hts
  simp only [Clause.tokens, List.append_assoc, List.cons_append] at hc
  obtain ⟨d, hd, hrest⟩ := exists_steps hs hc
  obtain ⟨d₁, h₁, hrest⟩ := exists_steps (skip_skip d) hrest
  obtain ⟨d₂, h₂, hrest⟩ := exists_steps (skip_skip d₁) hrest
  obtain ⟨ps, e, hread, hpasses, htree⟩ :=
    h d₂.skip _ (skip_skip d₂) hrest (closed_ending hts)
  obtain ⟨f, hends, hending⟩ := exists_ends e ended (hpasses.rest_tokens hrest)
    (hts.imp_right And.right)
  have hname := (identifier_eq_some (skip_skip d)).mpr ⟨name, rfl, h₁⟩
  have hlet := (letStatement_eq_some hs).mpr
    ⟨d, hd, _, d₁, hname, d₂, h₂.literal, ps, e, hread, ⟨ended, hends⟩, rfl⟩
  have hall : Passes c (Clause.binding name p ended).tokens f :=
    .step hd (.layout (.step h₁ (.layout (.step h₂ (.layout (hpasses.trans hending))))))
  refine ⟨_, f, ?_, hall, .binding hall.tokensOf_upTo htree⟩
  rw [statement, outcome_orElse, hlet]
  rfl

theorem clauseReadable_returning {p : Phrase} (ended : Bool) (h : Readable 0 p) :
    ClauseReadable (.returning p ended) := by
  intro c ts hs hc hts
  simp only [Clause.tokens, List.append_assoc, List.cons_append] at hc
  obtain ⟨d, hd, hrest⟩ := exists_steps hs hc
  obtain ⟨ps, e, hread, hpasses, htree⟩ := h d.skip _ (skip_skip d) hrest (closed_ending hts)
  obtain ⟨f, hends, hending⟩ := exists_ends e ended (hpasses.rest_tokens hrest)
    (hts.imp_right And.right)
  have hreturn := (returnStatement_eq_some hs).mpr
    ⟨d, hd, ps, e, hread, ⟨ended, hends⟩, rfl⟩
  have hall : Passes c (Clause.returning p ended).tokens f :=
    .step hd (.layout (hpasses.trans hending))
  refine ⟨_, f, ?_, hall, .returning hall.tokensOf_upTo htree⟩
  rw [statement, outcome_orElse, hd.letStatement_eq_none (by simp), outcome_orElse, hreturn]
  rfl

theorem clauseReadable_expression {p : Phrase} (ended : Bool) (h : Readable 0 p) :
    ClauseReadable (.expression p ended) := by
  intro c ts hs hc hts
  rw [Clause.tokens, List.append_assoc] at hc
  obtain ⟨t, us, hus, ht⟩ := p.exists_tokens_eq
  have hhead := hc
  rw [hus, List.cons_append] at hhead
  obtain ⟨d, hd, -⟩ := exists_steps hs hhead
  obtain ⟨ps, e, hread, hpasses, htree⟩ := h c _ hs hc (closed_ending hts)
  obtain ⟨f, hends, hending⟩ := exists_ends e ended (hpasses.rest_tokens hc)
    (hts.imp_right And.right)
  have hexpression := expressionStatement_eq_some.mpr ⟨ps, e, hread, ⟨ended, hends⟩, rfl⟩
  have hall : Passes c (Clause.expression p ended).tokens f := hpasses.trans hending
  refine ⟨_, f, ?_, hall, .evaluation hall.tokensOf_upTo htree⟩
  have hkeyword (k : Keyword) (hk : Token.startsPhrase (.keyword k) = false) : t ≠ .keyword k := by
    rintro rfl
    rw [hk] at ht
    cases ht
  rw [statement, outcome_orElse, hd.letStatement_eq_none (hkeyword _ rfl), outcome_orElse,
    hd.returnStatement_eq_none (hkeyword _ rfl), hexpression]
  rfl

theorem Cursor.statement_eq_none {c : Cursor} (hs : c.skip = c)
    (h : ∀ t ∈ c.tokens.head?, t.startsClause = false) : c.statement.outcome = none := by
  rw [Option.eq_none_iff_forall_ne_some]
  rintro ⟨ps, e⟩ he
  obtain ⟨cl, -, hcl, -⟩ := (sound c hs).statement he
  obtain ⟨t, us, hus, ht⟩ := cl.exists_tokens_eq
  have hhead := hcl.tokens_eq
  rw [hus, List.cons_append] at hhead
  rw [h t (by rw [hhead]; rfl)] at ht
  cases ht

theorem clausesReadable_nil : ClausesReadable [] := by
  intro c ts hc hts
  refine ⟨[], c, statements_eq_some.mpr (.inr ⟨?_, rfl, rfl⟩), .refl c, .noClause⟩
  refine statement_eq_none (skip_skip c) fun t ht => ?_
  rw [tokens_skip, hc] at ht
  rw [hts t ht]
  rfl

theorem clausesReadable_cons {cl : Clause} {cs : List Clause}
    (hjoin : cl.ended = true ∨ (clauseTokens cs).head?.any Token.joins = false)
    (hcl : ClauseReadable cl) (hcs : ClausesReadable cs) : ClausesReadable (cl :: cs) := by
  intro c ts hc hts
  rw [clauseTokens, List.append_assoc, ← tokens_skip] at hc
  have hclosed : Closed 0 ts := by
    cases ts with
    | nil => exact closed_nil 0
    | cons t ts =>
        rw [hts t rfl]
        exact closed_mark ts
  have hsemicolon : (clauseTokens cs ++ ts).head? ≠ some (.symbol ';') := by
    cases cs with
    | nil =>
        intro hhead
        cases hts _ hhead
    | cons cl' cs =>
        obtain ⟨t, us, hus, ht⟩ := cl'.exists_tokens_eq
        rw [clauseTokens, hus]
        rintro ⟨⟩
        cases ht
  obtain ⟨ps, d, hread, hpasses, hfirst⟩ := hcl c.skip _ (skip_skip c) hc
    (hjoin.imp_right fun hjoins => ⟨hclosed.of_clauses hjoins, hsemicolon⟩)
  obtain ⟨qs, e, hmore, hlist, htree⟩ := hcs d ts (d.tokens_skip ▸ hpasses.rest_tokens hc) hts
  exact ⟨ps ++ qs, e, statements_eq_some.mpr (.inl ⟨ps, d, hread, qs, hmore, rfl⟩),
    .layout (hpasses.trans hlist), .clause hfirst htree⟩

theorem blockReadable_of_clauses {cs : List Clause} (h : ClausesReadable cs) :
    BlockReadable cs := by
  intro c ts hs hc
  rw [braced, List.append_assoc, List.cons_append] at hc
  obtain ⟨d, hd, hrest⟩ := exists_steps hs hc
  obtain ⟨ps, e, hread, hpasses, htree⟩ := h d.skip _ hrest (by rintro t ⟨⟩; rfl)
  obtain ⟨f, hf, -⟩ := hpasses.exists_next hrest
  exact ⟨_, f, (block_eq_some hs).mpr ⟨d, hd, ps, e, hread, hf, rfl⟩,
    .step hd (.trans (.layout hpasses) (.layout hf.passes)), .block _ htree⟩

/-- A phrase is read at every rank up to its own, and also where it begins a longer phrase. -/
structure Complete (p : Phrase) : Prop where
  chained (l : Level) (h : l.rank ≤ p.precedence) : Chained l p
  signed (h : 5 ≤ p.precedence) :
    ∃ ops, ∃ q : Phrase, p = q.signed ops ∧ q.WellFormed ∧ 6 ≤ q.precedence ∧ Readable 6 q
  called (h : 6 ≤ p.precedence) : Called p

theorem Complete.readable_unary {p : Phrase} (h : Complete p) (hprec : 5 ≤ p.precedence) :
    Readable 5 p := by
  obtain ⟨ops, q, rfl, hq, hrank, hread⟩ := h.signed hprec
  exact readable_signed ops hq hrank hread

theorem Complete.readable_succ {p : Phrase} (h : Complete p) (l : Level)
    (hprec : l.rank < p.precedence) : Readable (l.rank + 1) p := by
  cases ht : l.tighter? with
  | none =>
      rw [Level.rank_of_tighter_none ht] at hprec ⊢
      exact h.readable_unary hprec
  | some t =>
      rw [← Level.rank_tighter ht]
      refine readable_of_chained (h.chained t ?_)
      rw [Level.rank_tighter ht]
      exact hprec

theorem Complete.readable {p : Phrase} (h : Complete p) : Readable 0 p := by
  have hprec : 1 ≤ p.precedence := by
    cases p with
    | binary left op right => exact op.level.rank_pos
    | _ => simp [Phrase.precedence]
  exact readable_expression (readable_of_chained (h.chained .equality hprec))

/-- From a level on, the looser levels follow. -/
theorem Chained.looser {p : Phrase} {l : Level} (h : Chained l p) {k : Level}
    (hk : k.rank ≤ l.rank) : Chained k p := by
  by_cases heq : k = l
  · rwa [heq]
  · have hlt := Level.rank_lt_of_ne hk heq
    cases ht : k.tighter? with
    | none =>
        have := Level.rank_of_tighter_none ht
        have := l.rank_le
        omega
    | some t =>
        have hrank := Level.rank_tighter ht
        have := h.looser (k := t) (by omega)
        exact chained_of_readable (hrank ▸ readable_of_chained this)
termination_by 4 - k.rank
decreasing_by
  have := t.rank_le
  omega

theorem chained_of_unary {p : Phrase} (h : Readable 5 p) (l : Level) : Chained l p :=
  (chained_of_readable (l := .product) h).looser l.rank_le

theorem complete_of_called {p : Phrase} (hp : p.WellFormed) (hprec : 6 ≤ p.precedence)
    (h : Called p) : Complete p := by
  have hread : Readable 6 p := readable_of_called h
  exact ⟨fun l _ => chained_of_unary (readable_signed [] hp hprec hread) l,
    fun _ => ⟨[], p, rfl, hp, hprec, hread⟩, fun _ => h⟩

theorem complete_of_primary {p : Phrase} (hp : p.WellFormed) (hprec : 7 ≤ p.precedence)
    (h : Readable 7 p) : Complete p :=
  complete_of_called hp (Nat.le_of_succ_le hprec) (called_of_readable h)

theorem complete_unary {op : UnaryOp} {p : Phrase} (hprec : 5 ≤ p.precedence) (h : Complete p) :
    Complete (.unary op p) := by
  obtain ⟨ops, q, rfl, hq, hrank, hread⟩ := h.signed hprec
  refine ⟨fun l _ => chained_of_unary (readable_signed (op :: ops) hq hrank hread) l,
    fun _ => ⟨op :: ops, q, rfl, hq, hrank, hread⟩, fun h6 => ?_⟩
  simp only [Phrase.precedence] at h6
  omega

theorem complete_binary {op : BinaryOp} {p q : Phrase} (hp : op.level.rank ≤ p.precedence)
    (hq : op.level.rank < q.precedence) (h : Complete p) (h' : Complete q) :
    Complete (.binary p op q) := by
  have hchain := chained_binary (h.chained op.level hp) (h'.readable_succ op.level hq)
  have hrank := op.level.rank_le
  refine ⟨fun l hl => hchain.looser hl, fun h5 => ?_, fun h6 => ?_⟩
  · simp only [Phrase.precedence] at h5
    omega
  · simp only [Phrase.precedence] at h6
    omega

mutual

theorem Phrase.complete : (p : Phrase) → p.WellFormed → Complete p
  | .name text, hp => complete_of_primary hp (Nat.le_refl 7) (readable_name text)
  | .numeral digits, hp => complete_of_primary hp (Nat.le_refl 7) (readable_numeral digits)
  | .boolean value, hp => complete_of_primary hp (Nat.le_refl 7) (readable_boolean value)
  | .grouped inner, hp =>
      complete_of_primary hp (Nat.le_refl 7) (readable_grouped (inner.complete hp).readable)
  | .unary _ operand, hp => complete_unary hp.2 (operand.complete hp.1)
  | .binary left _ right, hp =>
      complete_binary hp.2.2.1 hp.2.2.2 (left.complete hp.1) (right.complete hp.2.1)
  | .conditional test yes none, hp =>
      complete_of_primary hp (Nat.le_refl 7) (readable_ifThen (test.complete hp.1).readable
        (blockReadable_of_clauses (clausesReadable yes hp.2)))
  | .conditional test yes (some no), hp =>
      complete_of_primary hp (Nat.le_refl 7) (readable_ifThenElse (test.complete hp.1).readable
        (blockReadable_of_clauses (clausesReadable yes hp.2.1))
        (blockReadable_of_clauses (clausesReadable no hp.2.2)))
  | .function _ body, hp =>
      complete_of_primary hp (Nat.le_refl 7)
        (readable_function (blockReadable_of_clauses (clausesReadable body hp)))
  | .call callee args, hp =>
      complete_of_called hp (Nat.le_refl 6)
        (called_call ((callee.complete hp.1).called hp.2.1)
          (itemsReadable_of_readable (phrasesReadable args hp.2.2)))

theorem Clause.readable : (cl : Clause) → cl.WellFormed → ClauseReadable cl
  | .binding name value ended, h => clauseReadable_binding name ended (value.complete h).readable
  | .returning value ended, h => clauseReadable_returning ended (value.complete h).readable
  | .expression value ended, h => clauseReadable_expression ended (value.complete h).readable

theorem clausesReadable : (cs : List Clause) → ClausesWellFormed cs → ClausesReadable cs
  | [], _ => clausesReadable_nil
  | cl :: cs, h => clausesReadable_cons h.2.1 (cl.readable h.1) (clausesReadable cs h.2.2)

theorem phrasesReadable : (ps : List Phrase) → PhrasesWellFormed ps → ∀ p ∈ ps, Readable 0 p
  | [], _ => fun _ hq => nomatch hq
  | p :: ps, h => fun q hq =>
      (List.mem_cons.mp hq).elim (fun heq => heq ▸ (p.complete h.1).readable)
        (phrasesReadable ps h.2 q)

end

theorem Cursor.exists_program {cs : List Clause} (h : ClausesWellFormed cs) {c : Cursor}
    (hc : c.tokens = clauseTokens cs) :
    ∃ ps whole ending d, c.program.outcome =
        some ([.mk .program whole (ps ++ [.mk .endOfInput ending []])], d) ∧
      Tree (.clauses cs) ps := by
  rw [← tokens_skip, ← List.append_nil (clauseTokens cs)] at hc
  obtain ⟨ps, d, hread, hpasses, htree⟩ := clausesReadable cs h c.skip [] hc (by rintro t ⟨⟩)
  have hrest := hpasses.rest_tokens hc
  have hend := rest_eq_nil_of_tokens (skip_skip d) hrest
  exact ⟨ps, _, _, _, program_eq_some.mpr ⟨ps, d, hread, hend, rfl, rfl⟩, htree⟩

end MonkeyLang
