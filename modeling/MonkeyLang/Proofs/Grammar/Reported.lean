import MonkeyLang.Proofs.Grammar.Expected

/-!
What is left to report by the rules of the grammar. A call tries several rules at its start, so that
it stands for them if it fails there; the operands around it have nothing to add. Of a whole
expression that fails at its start one rule is left, and this one can be reported.
-/
namespace MonkeyLang
namespace Cursor

open Reading Expectation

variable {c d : Cursor} {n : Nat} {ps : List Piece} {ts : List Token}

theorem Passes.offset_le (h : Passes c ts d) : c.offset ≤ d.offset := by
  obtain ⟨taken, -, hoffset, -⟩ := h.exists_taken
  rw [hoffset]
  exact Nat.le_add_right _ _

theorem Passes.offset_lt (h : Passes c ts d) (hts : ts ≠ []) : c.offset < d.offset := by
  obtain ⟨taken, -, hoffset, htokens⟩ := h.exists_taken
  have htaken : taken ≠ [] := by
    rintro rfl
    exact hts (htokens.symm.trans tokensOf_nil)
  rw [hoffset]
  exact Nat.lt_add_of_pos_right (List.length_pos_iff.mpr htaken)

theorem expected_literal (text : String) (c : Cursor) : (c.literal text).expected = .empty := by
  unfold literal
  split <;> rfl

theorem expected_oneOf (c : Cursor) (texts : List String) : (c.oneOf texts).expected = .empty := by
  induction texts with
  | nil => rfl
  | cons text texts ih =>
      rw [oneOf]
      cases h : (c.literal text).outcome with
      | none => rw [expected_orElse_of_none h, expected_literal, empty_merge, ih]
      | some x => rw [expected_orElse_of_some h, expected_literal]

theorem expected_run (first more : Char → Bool) (c : Cursor) :
    (c.run first more).expected = .empty := by
  unfold run
  split
  · rfl
  · split <;> rfl

theorem expected_semicolon (c : Cursor) : c.semicolon.expected = .empty := by
  rw [semicolon, expected_orStay]
  exact expected_literal ";" c

theorem expected_word (k : Keyword) (c : Cursor) :
    ((c.literal k.text).unlessBefore isWordPart).expected = .empty :=
  expected_unlessBefore _ (expected_literal _ c)

theorem reportable_literal (text : String) (c : Cursor) : (c.literal text).expected.Reportable :=
  .inl (expected_literal text c)

theorem reportable_semicolon (c : Cursor) : c.semicolon.expected.Reportable :=
  .inl (expected_semicolon c)

theorem reports_keyword {rule : Rule} (hrule : rule ∈ Rule.reportable) (k : Keyword)
    (c : Cursor) : Reports c (c.keyword rule k) :=
  reports_named hrule (.inl (expected_word k c))

theorem leads_keyword {rule : Rule} (hrule : rule ∈ Rule.reportable) (k : Keyword) (c : Cursor) :
    Leads c (c.keyword rule k) where
  reportable := (reports_keyword hrule k c).reportable
  single hnone := by
    rw [keyword, outcome_named, Option.map_eq_none_iff] at hnone
    rw [keyword, furthest, expected_named_of_none hnone, expected_word, failed_empty]
    exact .inr ⟨rfl, rfl⟩

theorem clearBehind_keyword (rule : Rule) (k : Keyword) (c : Cursor) :
    (c.keyword rule k).expected.ClearBehind c.offset :=
  clearBehind_named rule (expected_word k c ▸ reportable_empty.clearBehind _)

theorem expected_identifierText (c : Cursor) :
    (if c.atKeyword then .failure else c.run isWordStart isWordPart : Reading c.size).expected =
      .empty := by
  split
  · rfl
  · exact expected_run _ _ c

theorem reports_identifier (c : Cursor) : Reports c c.identifier :=
  reports_named (by decide) (.inl (expected_identifierText c))

theorem reports_operator (l : Level) (c : Cursor) : Reports c (c.operator l) :=
  reports_named (by cases l <;> decide) (.inl (expected_oneOf c _))

theorem reports_sign (c : Cursor) : Reports c c.sign :=
  reports_named (by decide) (.inl (expected_oneOf c _))

theorem tells_signs (c : Cursor) : c.signs.expected.Tells c.skip.offset := by
  rw [signs, expected_again]
  cases h : c.skip.sign.outcome with
  | none =>
      rw [expected_andMore_of_none h]
      exact (reports_sign c.skip).tells h
  | some x =>
      have h₁ := c.size_skip_le
      have h₂ := size_lt_of_outcome h
      have hoffset : c.skip.offset ≤ x.2.offset := eq_advance_of_sign h ▸ Nat.le_add_right _ _
      rw [expected_andMore_of_some h]
      exact (reports_sign c.skip).reportable.merge_tells
        ((tells_signs x.2).mono (Nat.le_trans hoffset x.2.offset_le_skip))
termination_by c.size

section Lists

variable {r : (d : Cursor) → Reading d.size} {s : (d : Cursor) → Reading (d.size + 1)}

/-- Where less than a bound is left, what an item expects can be reported. -/
def ItemReportable (n : Nat) (r : (d : Cursor) → Reading d.size) : Prop :=
  ∀ d : Cursor, d.skip = d → d.size < n → (r d).expected.Reportable

theorem reportable_more {c : Cursor} (hr : ItemReportable n r)
    (hle : ∀ c d : Cursor, d.size ≤ c.size → ∀ d' : Cursor, d'.size < d.size →
      ∀ d'' : Cursor, d''.size < d'.size → d''.size + 1 ≤ c.size + 1)
    (hs : ∀ c, s c = again c fun d hd => (d.literal ",").andThen fun d' hd' =>
      (r d').andMore fun d'' hd'' => (s d'').widen (hle c d hd d' hd' d'' hd''))
    (hc : c.size ≤ n) : (s c).expected.Reportable := by
  rw [hs, expected_again]
  refine reportable_andMore (reportable_literal _ _) fun ps d hd => ?_
  have h₁ := c.size_skip_le
  have h₂ := size_skip_lt_of_outcome hd
  refine reportable_andMore (hr d.skip (skip_skip d) (by omega)) fun qs e he => ?_
  have h₃ := size_lt_of_outcome he
  exact reportable_more hr hle hs (c := e) (by omega)
termination_by c.size

theorem reportable_list (hr : ItemReportable n r)
    (hle : ∀ c d : Cursor, d.size ≤ c.size → ∀ d' : Cursor, d'.size < d.size →
      ∀ d'' : Cursor, d''.size < d'.size → d''.size + 1 ≤ c.size + 1)
    (hs : ∀ c, s c = again c fun d hd => (d.literal ",").andThen fun d' hd' =>
      (r d').andMore fun d'' hd'' => (s d'').widen (hle c d hd d' hd' d'' hd''))
    {hlt : ∀ d : Cursor, d.size < c.size → d.size + 1 ≤ c.size + 1}
    (hsettled : c.skip = c) (hc : c.size < n) :
    (orStay c ((r c).andThen fun d hd => (s d).widen (hlt d hd))).expected.Reportable := by
  rw [expected_orStay]
  refine reportable_andMore (hr c hsettled hc) fun ps d hd => ?_
  have h₁ := size_skip_lt_of_outcome hd
  exact reportable_more hr hle hs (c := d.skip) (by omega)

theorem reports_between {rule : Rule} {a b : String} (hrule : rule ∈ Rule.reportable)
    (hs : ∀ d : Cursor, d.size < c.size → (s d.skip).expected.Reportable)
    {hle : ∀ d : Cursor, d.size < c.size → ∀ d' : Cursor, d'.size < d.size + 1 →
      d'.size ≤ c.size} :
    Reports c (named rule c ((c.literal a).andThen fun d hd =>
      (s d).andThen fun d' hd' => (d'.literal b).widen (hle d hd d' hd'))) :=
  reports_named hrule <| reportable_andMore (reportable_literal _ _) fun _ d hd =>
    reportable_andMore (hs d (size_lt_of_outcome hd)) fun _ e _ => reportable_literal _ e.skip

end Lists

theorem reports_parameters (c : Cursor) : Reports c c.parameters := by
  rw [parameters]
  refine reports_between (by decide) fun d hd => ?_
  have h₁ := d.size_skip_le
  rw [parameterList]
  refine reportable_list (n := c.size) (fun e _ _ => (reports_identifier e).reportable) ?_ (fun e => ?_)
    (skip_skip d) (by omega)
  · omega
  · rw [moreParameters]

/-- What the rules for expressions and statements expect at a cursor. -/
structure Reporting (c : Cursor) : Prop where
  expression : Leads c c.expression
  tighterOperand (l : Level) : Leads c (c.tighterOperand l)
  statement : Reports c c.statement

def ReportingBelow (n : Nat) : Prop := ∀ c : Cursor, c.skip = c → c.size < n → Reporting c

theorem reports_arguments (ih : ReportingBelow n) (hc : c.size ≤ n) : Reports c c.arguments := by
  rw [arguments]
  refine reports_between (by decide) fun d hd => ?_
  have h₁ := d.size_skip_le
  rw [argumentList]
  refine reportable_list (n := n) (fun e he hlt => (ih e he hlt).expression.reportable) ?_
    (fun e => ?_) (skip_skip d) (by omega)
  · omega
  · rw [moreArguments]

/-- Something is expected behind the last of some statements. -/
theorem tells_statements {c : Cursor} (ih : ReportingBelow n) (hc : c.size < n) :
    c.statements.expected.Tells 0 := by
  have h₁ := c.size_skip_le
  have hstatement := ih c.skip (skip_skip c) (by omega)
  rw [statements, expected_again]
  cases h : c.skip.statement.outcome with
  | none =>
      rw [expected_andMore_of_none h]
      exact (hstatement.statement.tells h).mono (Nat.zero_le _)
  | some x =>
      have h₂ := size_lt_of_outcome h
      rw [expected_andMore_of_some h]
      exact hstatement.statement.reportable.merge_tells (tells_statements ih (c := x.2) (by omega))
termination_by c.size

theorem reports_block (ih : ReportingBelow n) (hc : c.size ≤ n) : Reports c c.block := by
  rw [block]
  refine reports_between (by decide) fun d hd => ?_
  have h₁ := d.size_skip_le
  exact (tells_statements ih (by omega)).reportable

theorem clearBehind_functionLiteral (ih : ReportingBelow n) (hc : c.size ≤ n) :
    c.functionLiteral.expected.ClearBehind c.offset := by
  rw [functionLiteral]
  refine clearBehind_named _ (clearBehind_andMore (clearBehind_keyword _ _ c) fun ps d hd => ?_)
  have h₁ := size_skip_lt_of_outcome hd
  refine (reportable_andMore (reports_parameters d.skip).reportable fun qs e he => ?_).clearBehind _
  have h₂ := size_skip_lt_of_outcome he
  exact (reports_block ih (c := e.skip) (by omega)).reportable

theorem reportable_alternative (ih : ReportingBelow n) (hc : c.size ≤ n) :
    c.alternative.expected.Reportable := by
  rw [alternative, expected_orStay]
  refine reportable_andMore (reports_keyword (by decide) _ c).reportable fun ps d hd => ?_
  have h₁ := size_skip_lt_of_outcome hd
  exact (reports_block ih (c := d.skip) (by omega)).reportable

theorem clearBehind_ifExpression (ih : ReportingBelow n) (hc : c.size ≤ n) :
    c.ifExpression.expected.ClearBehind c.offset := by
  rw [ifExpression]
  refine clearBehind_named _ (clearBehind_andMore (clearBehind_keyword _ _ c) fun ps d hd => ?_)
  have h₁ := size_skip_lt_of_outcome hd
  refine (reportable_andMore (reportable_literal _ _) fun qs d₁ hd₁ => ?_).clearBehind _
  have h₂ := size_skip_lt_of_outcome hd₁
  refine reportable_andMore ?_ fun rs d₂ hd₂ => ?_
  · exact (ih d₁.skip (skip_skip d₁) (by omega)).expression.reportable
  have h₃ := size_skip_lt_of_outcome hd₂
  refine reportable_andMore (reportable_literal _ _) fun ss d₃ hd₃ => ?_
  have h₄ := size_skip_lt_of_outcome hd₃
  refine reportable_andMore ?_ fun ts d₄ hd₄ => ?_
  · exact (reports_block ih (c := d₃.skip) (by omega)).reportable
  have h₅ := size_skip_lt_of_outcome hd₄
  exact reportable_alternative ih (c := d₄.skip) (by omega)

theorem reportable_grouped (ih : ReportingBelow n) (hc : c.size ≤ n) :
    c.grouped.expected.Reportable := by
  rw [grouped]
  refine reportable_andMore (reportable_literal _ _) fun ps d hd => ?_
  have h₁ := size_skip_lt_of_outcome hd
  exact reportable_andMore (ih d.skip (skip_skip d) (by omega)).expression.reportable
    fun qs e _ => reportable_literal _ e.skip

theorem clearBehind_integer (c : Cursor) : c.integer.expected.ClearBehind c.offset :=
  clearBehind_named _ (expected_run _ _ c ▸ reportable_empty.clearBehind _)

theorem expected_booleanText (c : Cursor) :
    ((c.oneOf ["true", "false"]).unlessBefore isWordPart).expected = .empty :=
  expected_unlessBefore _ (expected_oneOf c _)

theorem clearBehind_boolean (c : Cursor) : c.boolean.expected.ClearBehind c.offset :=
  clearBehind_named _ (expected_booleanText c ▸ reportable_empty.clearBehind _)

theorem stacked_integer (h : c.integer.outcome = none) : c.integer.expected.Stacked c.offset 1 :=
  stacked_named_of_none _ (expected_run _ _ c ▸ reportable_empty.clearBehind _) h

theorem stacked_boolean (h : c.boolean.outcome = none) : c.boolean.expected.Stacked c.offset 1 :=
  stacked_named_of_none _ (expected_booleanText c ▸ reportable_empty.clearBehind _) h

/-- The alternatives behind numbers and truth values. -/
theorem clearBehind_forms (ih : ReportingBelow n) (hc : c.size ≤ n) :
    (c.functionLiteral.orElse fun _ => c.ifExpression.orElse fun _ =>
      c.identifier.orElse fun _ => c.grouped).expected.ClearBehind c.offset :=
  clearBehind_orElse (clearBehind_functionLiteral ih hc) <|
    clearBehind_orElse (clearBehind_ifExpression ih hc) <|
    clearBehind_orElse ((reports_identifier c).reportable.clearBehind _) <|
    (reportable_grouped ih hc).clearBehind _

theorem clearBehind_primary (ih : ReportingBelow n) (hc : c.size ≤ n) :
    c.primary.expected.ClearBehind c.offset := by
  rw [primary]
  exact clearBehind_orElse (clearBehind_integer c) <|
    clearBehind_orElse (clearBehind_boolean c) (clearBehind_forms ih hc)

/-- Numbers and truth values have both been tried where a primary expression fails. -/
theorem stacked_primary (ih : ReportingBelow n) (hc : c.size ≤ n) (h : c.primary.outcome = none) :
    c.primary.expected.Stacked c.offset 2 := by
  have hnone := h
  simp only [primary, outcome_orElse, Option.or_eq_none_iff] at hnone
  obtain ⟨hinteger, hboolean, -⟩ := hnone
  rw [primary, expected_orElse_of_none hinteger, expected_orElse_of_none hboolean]
  exact (stacked_integer hinteger).merge
    ((stacked_boolean hboolean).merge_clear (clearBehind_forms ih hc))

theorem tells_moreCalls {c : Cursor} (ih : ReportingBelow n) (hc : c.size ≤ n) :
    c.moreCalls.expected.Tells c.skip.offset := by
  have h₁ := c.size_skip_le
  have harguments := reports_arguments ih (c := c.skip) (by omega)
  rw [moreCalls, expected_again]
  cases h : c.skip.arguments.outcome with
  | none =>
      rw [expected_andMore_of_none h]
      exact harguments.tells h
  | some x =>
      have h₂ := size_lt_of_outcome h
      obtain ⟨args, -, hpasses⟩ := arguments_sound (soundBelow _) (skip_skip c) (Nat.le_refl _) h
      rw [expected_andMore_of_some h]
      exact harguments.reportable.merge_tells ((tells_moreCalls ih (c := x.2) (by omega)).mono
        (Nat.le_trans hpasses.offset_le x.2.offset_le_skip))
termination_by c.size

/-- A call hides what the alternatives have left at its start. -/
theorem tells_call (ih : ReportingBelow n) (hs : c.skip = c) (hc : c.size ≤ n) :
    c.call.expected.Tells c.offset := by
  rw [call]
  cases h : c.primary.outcome with
  | none =>
      rw [expected_named_of_none (outcome_andThen_of_none h), Reading.andThen,
        expected_andMore_of_none h]
      exact (stacked_primary ih hc h).failed (Nat.le_refl 2) (by decide)
  | some x =>
      obtain ⟨ps, d⟩ := x
      have h₁ := size_skip_lt_of_outcome h
      obtain ⟨p, -, -, hpasses⟩ := primary_sound (soundBelow _) hs (Nat.le_refl _) h
      obtain ⟨t, us, hus, -⟩ := p.exists_tokens_eq
      have hlt := hpasses.skip.offset_lt (hus ▸ List.cons_ne_nil t us)
      have hmore := tells_moreCalls ih (c := d.skip) (by omega)
      rw [skip_skip] at hmore
      -- More arguments are looked for behind what has been read, and this hides what failed before it.
      refine (tells_named _ ?_ hlt).mono (Nat.le_of_lt hlt)
      rw [Reading.andThen, expected_andMore_of_some h]
      exact (clearBehind_primary ih hc).merge_tells hmore hlt

theorem offset_le_of_signs (h : c.signs.outcome = some (ps, d)) : c.offset ≤ d.offset := by
  obtain ⟨ops, hops⟩ | ⟨⟨ops, e, f, hops, -, rfl⟩, -⟩ := signs_sound h
  · exact hops.offset_le
  · exact Nat.le_trans hops.offset_le (Nat.le_add_right _ _)

/-- Signs and calls have both been tried where a signed call fails. -/
theorem leads_unary (ih : ReportingBelow n) (hs : c.skip = c) (hc : c.size ≤ n) :
    Leads c c.unary := by
  have hsigns := tells_signs c
  rw [hs] at hsigns
  have hcall (d : Cursor) (hd : d.size < c.size + 1) :
      d.skip.call.expected.Tells d.skip.offset := by
    have := d.size_skip_le
    exact tells_call ih (skip_skip d) (by omega)
  rw [unary]
  refine leads_named_of_stacked (by decide) ?_ fun _ => ?_
  · exact reportable_andMore hsigns.reportable fun ps d hd =>
      (hcall d (size_lt_of_outcome hd)).reportable
  · obtain ⟨⟨ps, d⟩, hd⟩ := Option.isSome_iff_exists.mp (isSome_signs c)
    have hlater := hcall d (size_lt_of_outcome hd)
    rw [Reading.andThen, expected_andMore_of_some hd]
    -- If there is no sign, one rule has failed for the sign and at least one for the call.
    obtain ⟨qs, e, he, rs, hrs, -⟩ | ⟨-, -, rfl⟩ := signs_eq_some.mp hd
    · have hlt : c.offset < e.offset := by
        rw [eq_advance_of_sign he, hs]
        exact Nat.lt_succ_self _
      exact (hsigns.reportable.merge_tells hlater).stacked_of_lt
        (Nat.lt_of_lt_of_le hlt (Nat.le_trans (offset_le_of_signs hrs) d.offset_le_skip)) 2
    · exact hsigns.stacked.merge (hlater.mono d.offset_le_skip).stacked

theorem reportable_moreOperands {c : Cursor} {l : Level} (ih : ReportingBelow n) (hc : c.size ≤ n) :
    (c.moreOperands l).expected.Reportable := by
  have h₁ := c.size_skip_le
  rw [moreOperands, expected_again]
  refine reportable_andMore (reports_operator l c.skip).reportable fun ps d hd => ?_
  have h₂ := size_skip_lt_of_outcome hd
  refine reportable_andMore ?_ fun qs e he => ?_
  · exact ((ih d.skip (skip_skip d) (by omega)).tighterOperand l).reportable
  · have h₃ := size_lt_of_outcome he
    exact reportable_moreOperands ih (c := e) (by omega)
termination_by c.size

theorem leads_operand (l : Level) (ih : ReportingBelow n) (hc : c.size ≤ n)
    (hl : Leads c (c.tighterOperand l)) : Leads c (c.operand l) := by
  rw [operand]
  refine (hl.andThen_total (fun d hd => ?_) fun d hd => ?_).named l.rule
  · rw [outcome_widen]
    exact isSome_moreOperands l d
  · exact reportable_moreOperands ih (c := d) (by omega)

theorem leads_tighterOperand (l : Level) (ih : ReportingBelow n) (hs : c.skip = c)
    (hc : c.size ≤ n) : Leads c (c.tighterOperand l) := by
  cases ht : l.tighter? with
  | none =>
      rw [tighterOperand_of_none ht]
      exact leads_unary ih hs hc
  | some t =>
      have hrank := Level.rank_tighter ht
      rw [tighterOperand_of_some ht]
      exact leads_operand t ih hc (leads_tighterOperand t ih hs hc)
termination_by 4 - l.rank
decreasing_by
  have := t.rank_le
  omega

theorem leads_expression (ih : ReportingBelow n) (hs : c.skip = c) (hc : c.size ≤ n) :
    Leads c c.expression := by
  rw [expression]
  exact (leads_operand .equality ih hc (leads_tighterOperand .equality ih hs hc)).named .expression

theorem isSome_semicolon (c : Cursor) : c.semicolon.outcome.isSome = true := by
  rw [semicolon]
  exact isSome_orStay _

theorem reports_letStatement (ih : ReportingBelow n) (hc : c.size ≤ n) :
    Reports c c.letStatement := by
  rw [letStatement]
  refine reports_named (by decide) ?_
  refine reportable_andMore (reports_keyword (by decide) _ c).reportable fun ps d hd => ?_
  have h₁ := size_skip_lt_of_outcome hd
  refine reportable_andMore (reports_identifier d.skip).reportable fun qs d₁ hd₁ => ?_
  have h₂ := size_skip_lt_of_outcome hd₁
  refine reportable_andMore (reportable_literal _ _) fun rs d₂ hd₂ => ?_
  have h₃ := size_skip_lt_of_outcome hd₂
  exact reportable_andMore (ih d₂.skip (skip_skip d₂) (by omega)).expression.reportable
    fun ss d₃ _ => reportable_semicolon d₃.skip

/-- An expression at the end of a statement. -/
theorem leads_ending (h : Leads c c.expression)
    {hle : ∀ d : Cursor, d.size < c.size → d.size + 1 ≤ n} :
    Leads c (c.expression.andThen fun d hd => d.semicolon.widen (hle d hd)) := by
  refine h.andThen_total (fun d hd => ?_) fun d _ => reportable_semicolon d
  rw [outcome_widen]
  exact isSome_semicolon d

theorem leads_returnStatement (ih : ReportingBelow n) (hs : c.skip = c) (hc : c.size ≤ n) :
    Leads c c.returnStatement := by
  have hlater (d : Cursor) (hd : d.size < c.size) :
      Leads d.skip (d.skip.expression.andThen fun e he =>
        e.semicolon.widen (n := c.size) (by have := d.size_skip_le; omega)) := by
    have := d.size_skip_le
    exact leads_ending (ih d.skip (skip_skip d) (by omega)).expression
  rw [returnStatement]
  refine Leads.named (Leads.andThen ?_ (fun ps d hd => ?_) fun ps d hd hnone => ?_) _
  · exact leads_keyword (by decide) .returnWord c
  · exact (hlater d (size_lt_of_outcome hd)).reportable
  · obtain ⟨-, hword⟩ := (keyword_eq_some hs).mp hd
    have hlt := hword.passes.skip.offset_lt (List.cons_ne_nil _ _)
    exact Nat.lt_of_lt_of_le hlt ((hlater d (size_lt_of_outcome hd)).tells hnone).le

theorem leads_expressionStatement (ih : ReportingBelow n) (hs : c.skip = c) (hc : c.size ≤ n) :
    Leads c c.expressionStatement := by
  rw [expressionStatement]
  exact (leads_ending (leads_expression ih hs hc)).named .expressionStatement

theorem reports_statement (ih : ReportingBelow n) (hs : c.skip = c) (hc : c.size ≤ n) :
    Reports c c.statement := by
  rw [statement]
  exact (reports_letStatement ih hc).orElse <|
    reportable_orElse (leads_returnStatement ih hs hc).reportable
      (leads_expressionStatement ih hs hc).reportable

theorem reporting (c : Cursor) (hs : c.skip = c) : Reporting c := by
  have ih : ReportingBelow c.size := fun d hd _ => reporting d hd
  constructor
  · exact leads_expression ih hs (Nat.le_refl _)
  · exact fun l => leads_tighterOperand l ih hs (Nat.le_refl _)
  · exact reports_statement ih hs (Nat.le_refl _)
termination_by c.size

theorem tells_endOfInput (h : c.endOfInput.outcome = none) :
    c.endOfInput.expected.Tells c.offset := by
  have hreports : Reports c c.endOfInput := by
    refine reports_named (by decide) (.inl ?_)
    split <;> rfl
  exact hreports.tells h

/-- The whole program stands for all that fails at its start. -/
theorem expected_program {text : List Char} (h : (start text).program.outcome = none) :
    (start text).program.expected = ⟨0, [.program]⟩ ∨
      0 < (start text).program.expected.position ∧ (start text).program.expected.Speaks := by
  have hstatements := tells_statements (c := (start text).skip) (fun d hd _ => reporting d hd)
    (size_lt_succ _)
  obtain ⟨⟨ps, d⟩, hd⟩ := Option.isSome_iff_exists.mp (isSome_statements (start text).skip)
  have hend : d.skip.endOfInput.outcome = none := by
    rw [Option.eq_none_iff_forall_ne_some]
    rintro ⟨qs, e⟩ he
    obtain ⟨hrest, -⟩ := endOfInput_eq_some.mp he
    rw [program_eq_some.mpr ⟨ps, d, hd, hrest, rfl, rfl⟩] at h
    cases h
  have hlast := (tells_endOfInput hend).mono (Nat.zero_le _)
  have hstacked := hstatements.stacked.merge hlast.stacked
  have hinside : (start text).program.expected = failed .program 0
      ((start text).skip.statements.expected.merge d.skip.endOfInput.expected) := by
    rw [program, outcome_named, Option.map_eq_none_iff] at h
    rw [program, expected_named_of_none h, Reading.andThen,
      expected_andMore_of_some (outcome_passed _ _), Reading.andThen, expected_andMore_of_some hd]
    exact congrArg (failed .program 0) (empty_merge _)
  rw [hinside]
  obtain hlt | heq := Nat.lt_or_eq_of_le hstacked.le
  · rw [failed_eq_self (.inl hlt)]
    exact .inr ⟨hlt, hstacked.clear hlt⟩
  · exact .inl (failed_eq_single heq.symm (hstacked.length heq.symm))

end Cursor
end MonkeyLang
