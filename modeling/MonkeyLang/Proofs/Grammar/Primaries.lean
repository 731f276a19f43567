import MonkeyLang.Proofs.Grammar.Readable

/-!
Phrases that need no neighbour, and the lists between parentheses. The alternatives of the rule
are told apart by their first token.
-/
namespace MonkeyLang

open Cursor Reading

/-- The statements are read between their braces. -/
def BlockReadable (cs : List Clause) : Prop :=
  ∀ (c : Cursor) (ts : List Token), c.skip = c →
    c.tokens = braced (clauseTokens cs) ++ ts →
    ∃ ps d, c.block.outcome = some (ps, d) ∧ Passes c (braced (clauseTokens cs)) d ∧
      Tree (.block cs) ps

theorem readable_of_token {p : Phrase} {t : Token} {ps : List Piece} (ht : p.tokens = [t])
    (htree : Tree (.phrase 7 p) ps)
    (h : ∀ {c d}, Steps c t d → c.primary.outcome = some (ps, d)) : Readable 7 p := by
  intro c ts hs hc _
  rw [ht, List.singleton_append] at hc
  obtain ⟨d, hd, -⟩ := exists_steps hs hc
  exact ⟨ps, d, h hd, by rw [ht]; exact hd.passes, htree⟩

theorem readable_name (text : String) : Readable 7 (.name text) := by
  refine readable_of_token rfl (.name text) fun {c d} hd => ?_
  rw [hd.outcome_primary]
  exact (identifier_eq_some hd.settled).mpr ⟨text, rfl, hd⟩

theorem readable_numeral (digits : String) : Readable 7 (.numeral digits) := by
  refine readable_of_token rfl (.numeral digits) fun {c d} hd => ?_
  rw [hd.outcome_primary]
  exact (integer_eq_some hd.settled).mpr ⟨digits, rfl, hd⟩

theorem readable_boolean (value : Bool) : Readable 7 (.boolean value) := by
  refine readable_of_token rfl (.boolean value) fun {c d} hd => ?_
  have hboolean := (boolean_eq_some hd.settled).mpr ⟨value, rfl, hd⟩
  rw [hd.outcome_primary]
  cases value <;> exact hboolean

theorem readable_grouped {p : Phrase} (h : Readable 0 p) : Readable 7 (.grouped p) := by
  intro c ts hs hc _
  rw [Phrase.tokens, parenthesized, List.append_assoc, List.cons_append] at hc
  obtain ⟨d, hd, hrest⟩ := exists_steps hs hc
  obtain ⟨ps, e, hread, hpasses, htree⟩ := h d.skip _ (skip_skip d) hrest (closed_mark _)
  obtain ⟨f, hf, -⟩ := hpasses.exists_next hrest
  refine ⟨ps, f, ?_, .step hd (.trans (.layout hpasses) (.layout hf.passes)), .grouped htree⟩
  change c.primary.outcome = _
  rw [hd.outcome_primary]
  exact (grouped_eq_some hs).mpr ⟨d, hd, e, hread, hf⟩

theorem exists_moreParameters (names : List String) {c : Cursor} {ts : List Token}
    (hc : c.skip.tokens =
      (names.map ([.name ·])).flatMap (.symbol ',' :: ·) ++ .symbol ')' :: ts) :
    ∃ d, c.moreParameters.outcome = some (names.map namePiece, d) ∧
      Passes c ((names.map ([.name ·])).flatMap (.symbol ',' :: ·)) d := by
  induction names generalizing c with
  | nil =>
      obtain ⟨d, hd, -⟩ := exists_steps (skip_skip c) hc
      refine ⟨c, moreParameters_eq_some.mpr (.inr ⟨fun e he => ?_, rfl, rfl⟩), .refl c⟩
      cases he.token_unique hd
  | cons name names ih =>
      obtain ⟨d, hd, hrest⟩ := exists_steps (skip_skip c) hc
      obtain ⟨e, he, hrest⟩ := exists_steps (skip_skip d) hrest
      obtain ⟨f, hmore, hpasses⟩ := ih hrest
      have hname := (identifier_eq_some (skip_skip d)).mpr ⟨name, rfl, he⟩
      exact ⟨f, moreParameters_eq_some.mpr (.inl ⟨d, hd, _, e, hname, _, hmore, rfl⟩),
        .layout (.step hd (.layout (.step he hpasses)))⟩

theorem exists_parameters (names : List String) {c : Cursor} {ts : List Token} (hs : c.skip = c)
    (hc : c.tokens = parenthesized (separated (names.map ([.name ·]))) ++ ts) :
    ∃ d, c.parameters.outcome =
        some ([.mk .parameters (c.upTo d) (names.map namePiece)], d) ∧
      Passes c (parenthesized (separated (names.map ([.name ·])))) d := by
  rw [parenthesized, List.append_assoc, List.cons_append] at hc
  obtain ⟨d, hd, hrest⟩ := exists_steps hs hc
  obtain ⟨e, hlist, hpasses⟩ : ∃ e, d.skip.parameterList.outcome = some (names.map namePiece, e) ∧
      Passes d.skip (separated (names.map ([.name ·]))) e := by
    cases names with
    | nil =>
        obtain ⟨e, he, -⟩ := exists_steps (skip_skip d) hrest
        have hnone := he.identifier_eq_none (by simp)
        exact ⟨d.skip, parameterList_eq_some.mpr (.inr ⟨hnone, rfl, rfl⟩), .refl _⟩
    | cons name names =>
        rw [List.map_cons, separated_cons, List.append_assoc, List.singleton_append] at hrest
        obtain ⟨e, he, hrest⟩ := exists_steps (skip_skip d) hrest
        rw [← skip_skip e] at hrest
        obtain ⟨f, hmore, hpasses⟩ := exists_moreParameters names hrest
        have hname := (identifier_eq_some (skip_skip d)).mpr ⟨name, rfl, he⟩
        refine ⟨f, parameterList_eq_some.mpr (.inl ⟨_, e, hname, _, hmore, rfl⟩), ?_⟩
        rw [List.map_cons, separated_cons]
        exact .step he (.layout hpasses)
  obtain ⟨f, hf, -⟩ := hpasses.exists_next hrest
  exact ⟨f, (parameters_eq_some hs).mpr ⟨d, hd, _, e, hlist, hf, rfl⟩,
    .step hd (.trans (.layout hpasses) (.layout hf.passes))⟩

theorem readable_function {params : List String} {cs : List Clause} (h : BlockReadable cs) :
    Readable 7 (.function params cs) := by
  intro c ts hs hc _
  rw [Phrase.tokens, List.append_assoc, List.cons_append] at hc
  obtain ⟨d, hd, hrest⟩ := exists_steps hs hc
  obtain ⟨e, hparams, hpasses⟩ := exists_parameters params (skip_skip d) hrest
  have hrest := hpasses.rest_tokens hrest
  obtain ⟨ps, f, hread, hblock, htree⟩ := h e.skip ts (skip_skip e) hrest
  have hall : Passes c (Phrase.function params cs).tokens f :=
    .step hd (.trans (.layout hpasses) (.layout hblock))
  refine ⟨_, f, ?_, hall, .function (d.skip.upTo e) hall.tokensOf_upTo htree⟩
  change c.primary.outcome = _
  rw [hd.outcome_primary]
  exact (functionLiteral_eq_some hs).mpr ⟨d, hd, _, e, hparams, ps, hread, rfl⟩

/-- What both forms of a conditional begin with. -/
theorem exists_ifThen {p : Phrase} {cs : List Clause} {c : Cursor} {ts : List Token}
    (hp : Readable 0 p) (hcs : BlockReadable cs) (hs : c.skip = c)
    (hc : c.tokens =
      .keyword .ifWord :: parenthesized p.tokens ++ braced (clauseTokens cs) ++ ts) :
    ∃ ps qs d, Tree (.phrase 0 p) ps ∧ Tree (.block cs) qs ∧
      Passes c (.keyword .ifWord :: parenthesized p.tokens ++ braced (clauseTokens cs)) d ∧
      ∀ rs e, d.skip.alternative.outcome = some (rs, e) →
        c.primary.outcome = some ([.mk .ifExpression (c.upTo e)
          (Keyword.ifWord.piece .ifKeyword :: (ps ++ (qs ++ rs)))], e) := by
  simp only [parenthesized, List.append_assoc, List.cons_append] at hc
  obtain ⟨d, hd, hrest⟩ := exists_steps hs hc
  obtain ⟨d₁, h₁, hrest⟩ := exists_steps (skip_skip d) hrest
  obtain ⟨ps, d₂, hread, hpasses, htest⟩ := hp d₁.skip _ (skip_skip d₁) hrest (closed_mark _)
  obtain ⟨d₃, h₃, hrest⟩ := hpasses.exists_next hrest
  obtain ⟨qs, d₄, hblock, hbody, hyes⟩ := hcs d₃.skip ts (skip_skip d₃) hrest
  refine ⟨ps, qs, d₄, htest, hyes, ?_, fun rs e hrs => ?_⟩
  · exact .step hd (.layout (.step h₁ (.trans (.trans (.layout hpasses) (.layout h₃.passes))
      (.layout hbody))))
  · rw [hd.outcome_primary]
    exact (ifExpression_eq_some hs).mpr
      ⟨d, hd, d₁, h₁, ps, d₂, hread, d₃, h₃, qs, d₄, hblock, rs, hrs, rfl⟩

theorem readable_ifThen {p : Phrase} {cs : List Clause} (hp : Readable 0 p)
    (hcs : BlockReadable cs) : Readable 7 (.conditional p cs none) := by
  intro c ts hs hc hts
  obtain ⟨ps, qs, d, htest, hyes, hpasses, hread⟩ := exists_ifThen hp hcs hs hc
  have hstay : d.skip.alternative.outcome = some ([], d.skip) := by
    refine (alternative_eq_some (skip_skip d)).mpr (.inr ⟨fun e he => ?_, rfl, rfl⟩)
    have hhead := he.tokens_eq
    rw [hpasses.rest_tokens hc] at hhead
    exact absurd (.inr (.inl rfl)) (hts _ (by rw [hhead]; rfl))
  have hall : Passes c (Phrase.conditional p cs none).tokens d.skip := hpasses.skip
  refine ⟨_, d.skip, hread _ _ hstay, hall, ?_⟩
  rw [List.append_nil]
  exact .ifThen hall.tokensOf_upTo htest hyes

theorem readable_ifThenElse {p : Phrase} {cs ds : List Clause} (hp : Readable 0 p)
    (hcs : BlockReadable cs) (hds : BlockReadable ds) :
    Readable 7 (.conditional p cs (some ds)) := by
  intro c ts hs hc _
  rw [Phrase.tokens, List.append_assoc] at hc
  obtain ⟨ps, qs, d, htest, hyes, hpasses, hread⟩ := exists_ifThen hp hcs hs hc
  obtain ⟨e, he, hrest⟩ := hpasses.exists_next hc
  obtain ⟨rs, f, hblock, hbody, hno⟩ := hds e.skip ts (skip_skip e) hrest
  have halternative := (alternative_eq_some (skip_skip d)).mpr (.inl ⟨e, he, rs, hblock, rfl⟩)
  have hall : Passes c (Phrase.conditional p cs (some ds)).tokens f :=
    hpasses.trans (.layout (.step he (.layout hbody)))
  exact ⟨_, f, hread _ _ halternative, hall, .ifThenElse hall.tokensOf_upTo htest hyes hno⟩

theorem Cursor.expression_eq_none {c d : Cursor} {t : Token} (h : Steps c t d)
    (ht : t.startsPhrase = false) : c.expression.outcome = none := by
  rw [Option.eq_none_iff_forall_ne_some]
  rintro ⟨ps, e⟩ he
  obtain ⟨p, -, hp⟩ := (sound c h.settled).expression he
  obtain ⟨u, us, hus, hu⟩ := p.exists_tokens_eq
  obtain ⟨f, hf⟩ := hp.head_eq hus
  rw [h.settled] at hf
  rw [h.token_unique hf, hu] at ht
  cases ht

theorem closed_items (args : List Phrase) (ts : List Token) :
    Closed 0 ((phraseTokens args).flatMap (.symbol ',' :: ·) ++ .symbol ')' :: ts) := by
  cases args with
  | nil => exact closed_mark _
  | cons p args => exact closed_mark _

theorem exists_moreArguments {args : List Phrase} (h : ∀ p ∈ args, Readable 0 p) {c : Cursor}
    {ts : List Token}
    (hc : c.skip.tokens = (phraseTokens args).flatMap (.symbol ',' :: ·) ++ .symbol ')' :: ts) :
    ∃ ps d, c.moreArguments.outcome = some (ps, d) ∧
      Passes c ((phraseTokens args).flatMap (.symbol ',' :: ·)) d ∧ Tree (.items args) ps := by
  induction args generalizing c with
  | nil =>
      obtain ⟨d, hd, -⟩ := exists_steps (skip_skip c) hc
      refine ⟨[], c, moreArguments_eq_some.mpr (.inr ⟨fun e he => ?_, rfl, rfl⟩), .refl c, .noItem⟩
      cases he.token_unique hd
  | cons p args ih =>
      rw [phraseTokens, List.flatMap_cons, List.append_assoc] at hc
      obtain ⟨d, hd, hrest⟩ := exists_steps (skip_skip c) hc
      obtain ⟨ps, e, hread, hpasses, hfirst⟩ :=
        h p List.mem_cons_self d.skip _ (skip_skip d) hrest (closed_items args ts)
      have hrest := hpasses.rest_tokens hrest
      obtain ⟨qs, f, hmore, hlist, htree⟩ := ih (fun q hq => h q (List.mem_cons_of_mem _ hq)) hrest
      exact ⟨ps ++ qs, f, moreArguments_eq_some.mpr (.inl ⟨d, hd, ps, e, hread, qs, hmore, rfl⟩),
        .layout (.step hd (.layout (hpasses.trans hlist))), .item hfirst htree⟩

theorem itemsReadable_of_readable {args : List Phrase} (h : ∀ p ∈ args, Readable 0 p) :
    ItemsReadable args := by
  intro c ts hs hc
  rw [parenthesized, List.append_assoc, List.cons_append] at hc
  obtain ⟨d, hd, hrest⟩ := exists_steps hs hc
  obtain ⟨ps, e, hlist, hpasses, htree⟩ : ∃ ps e, d.skip.argumentList.outcome = some (ps, e) ∧
      Passes d.skip (separated (phraseTokens args)) e ∧ Tree (.items args) ps := by
    cases args with
    | nil =>
        obtain ⟨e, he, -⟩ := exists_steps (skip_skip d) hrest
        have hnone := expression_eq_none he rfl
        exact ⟨[], d.skip, argumentList_eq_some.mpr (.inr ⟨hnone, rfl, rfl⟩), .refl _, .noItem⟩
    | cons p args =>
        rw [phraseTokens, separated_cons, List.append_assoc] at hrest
        obtain ⟨ps, e, hread, hpasses, hfirst⟩ :=
          h p List.mem_cons_self d.skip _ (skip_skip d) hrest (closed_items args ts)
        have hrest := hpasses.rest_tokens hrest
        rw [← skip_skip e] at hrest
        obtain ⟨qs, f, hmore, hlist, htree⟩ :=
          exists_moreArguments (fun q hq => h q (List.mem_cons_of_mem _ hq)) hrest
        refine ⟨ps ++ qs, f,
          argumentList_eq_some.mpr (.inl ⟨ps, e, hread, qs, hmore, rfl⟩), ?_,
          .item hfirst htree⟩
        rw [phraseTokens, separated_cons]
        exact hpasses.trans (.layout hlist)
  obtain ⟨f, hf, -⟩ := hpasses.exists_next hrest
  exact ⟨ps, f, (arguments_eq_some hs).mpr ⟨d, hd, ps, e, hlist, hf, rfl⟩,
    .step hd (.trans (.layout hpasses) (.layout hf.passes)), htree⟩

end MonkeyLang
