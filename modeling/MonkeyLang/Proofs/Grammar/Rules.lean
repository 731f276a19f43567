import MonkeyLang.Proofs.Grammar.Terminals

/-!
The rules of the grammar as laws of what they find. Here the text is no longer read character by
character: where a rule asks for a word or a mark, the longest token is that one.
-/
namespace MonkeyLang
namespace Cursor

open Reading

variable {c e : Cursor} {ps : List Piece}

theorem isSome_orStay (r : Reading (c.size + 1)) : (r.orStay c).outcome.isSome = true := by
  rw [outcome_orStay, Option.isSome_some]

theorem isSome_signs (c : Cursor) : c.signs.outcome.isSome = true := by
  rw [signs]
  exact isSome_orStay _

theorem isSome_moreOperands (l : Level) (c : Cursor) :
    (c.moreOperands l).outcome.isSome = true := by
  rw [moreOperands]
  exact isSome_orStay _

theorem isSome_moreCalls (c : Cursor) : c.moreCalls.outcome.isSome = true := by
  rw [moreCalls]
  exact isSome_orStay _

theorem isSome_moreArguments (c : Cursor) : c.moreArguments.outcome.isSome = true := by
  rw [moreArguments]
  exact isSome_orStay _

theorem isSome_moreParameters (c : Cursor) : c.moreParameters.outcome.isSome = true := by
  rw [moreParameters]
  exact isSome_orStay _

theorem isSome_statements (c : Cursor) : c.statements.outcome.isSome = true := by
  rw [statements]
  exact isSome_orStay _

theorem outcome_andMore_total_eq_none {m n : Nat} {r : Reading m}
    {f : (c : Cursor) → c.size < m → Reading n} (h : ∀ d hd, (f d hd).outcome.isSome = true) :
    (r.andMore f).outcome = none ↔ r.outcome = none := by
  rw [outcome_andMore_eq_none]
  constructor
  · intro hnone
    rw [Option.eq_none_iff_forall_ne_some]
    rintro ⟨qs, d⟩ hr
    have hd := h d (size_lt_of_outcome hr)
    rw [hnone qs d hr] at hd
    cases hd
  · intro hr qs d hsome
    rw [hr] at hsome
    cases hsome

section Shapes

variable {r : (d : Cursor) → Reading d.size} {s : (d : Cursor) → Reading (d.size + 1)}

theorem again_andMore_eq_some (hs : ∀ d, (s d).outcome.isSome = true)
    {hle : ∀ d : Cursor, d.size ≤ c.size → ∀ d' : Cursor, d'.size < d.size →
      d'.size + 1 ≤ c.size + 1} :
    (again c fun d hd => (r d).andMore fun d' hd' => (s d').widen (hle d hd d' hd')).outcome =
        some (ps, e) ↔
      (∃ qs d, (r c.skip).outcome = some (qs, d) ∧
        ∃ rs, (s d).outcome = some (rs, e) ∧ ps = qs ++ rs) ∨
      (r c.skip).outcome = none ∧ ps = [] ∧ e = c := by
  rw [outcome_again_eq_some, outcome_andMore_total_eq_none]
  · simp only [outcome_andMore_eq_some, outcome_widen, exists_prop]
  · intro d _
    rw [outcome_widen]
    exact hs d

theorem again_comma_eq_some (hs : ∀ d, (s d).outcome.isSome = true)
    {hle : ∀ d : Cursor, d.size ≤ c.size → ∀ d' : Cursor, d'.size < d.size →
      ∀ d'' : Cursor, d''.size < d'.size → d''.size + 1 ≤ c.size + 1} :
    (again c fun d hd => (d.literal ",").andThen fun d' hd' =>
        (r d').andMore fun d'' hd'' => (s d'').widen (hle d hd d' hd' d'' hd'')).outcome =
        some (ps, e) ↔
      (∃ d, Steps c.skip (.symbol ',') d ∧
        ∃ qs d', (r d.skip).outcome = some (qs, d') ∧
          ∃ rs, (s d').outcome = some (rs, e) ∧ ps = qs ++ rs) ∨
      (∀ d, Steps c.skip (.symbol ',') d → (r d.skip).outcome = none) ∧ ps = [] ∧ e = c := by
  rw [outcome_again_eq_some, outcome_andThen_eq_none, outcome_andThen_eq_some]
  simp only [outcome_andMore_eq_some, outcome_widen, exists_prop,
    mark_eq_some "," ',' (skip_skip c)]
  constructor
  · rintro (⟨_, d, ⟨rfl, hd⟩, _, ⟨qs, d', hq, rs, hr, rfl⟩, rfl⟩ | ⟨hnone, rfl, rfl⟩)
    · exact .inl ⟨d, hd, qs, d', hq, rs, hr, rfl⟩
    · refine .inr ⟨fun d hd => ?_, rfl, rfl⟩
      rw [← outcome_andMore_total_eq_none]
      · exact hnone [] d ⟨rfl, hd⟩
      · intro d' _
        rw [outcome_widen]
        exact hs d'
  · rintro (⟨d, hd, qs, d', hq, rs, hr, rfl⟩ | ⟨hnone, rfl, rfl⟩)
    · exact .inl ⟨_, d, ⟨rfl, hd⟩, _, ⟨qs, d', hq, rs, hr, rfl⟩, rfl⟩
    · exact .inr ⟨fun _ d hd => outcome_andMore_of_none (hnone d hd.2), rfl, rfl⟩

theorem orStay_andThen_eq_some (hs : ∀ d, (s d).outcome.isSome = true)
    {hle : ∀ d : Cursor, d.size < c.size → d.size + 1 ≤ c.size + 1} :
    (orStay c ((r c).andThen fun d hd => (s d).widen (hle d hd))).outcome = some (ps, e) ↔
      (∃ qs d, (r c).outcome = some (qs, d) ∧
        ∃ rs, (s d.skip).outcome = some (rs, e) ∧ ps = qs ++ rs) ∨
      (r c).outcome = none ∧ ps = [] ∧ e = c := by
  rw [outcome_orStay_eq_some, andThen, outcome_andMore_total_eq_none]
  · simp only [outcome_andMore_eq_some, outcome_widen, exists_prop]
  · intro d _
    rw [outcome_widen]
    exact hs d.skip

theorem named_andThen_eq_some {rule : Rule} {m n : Nat} {r : Reading m}
    {k : Cursor → Nat} {s : (d : Cursor) → Reading (k d)}
    {hle : ∀ d : Cursor, d.size < m → k d ≤ n} :
    (named rule c (r.andThen fun d hd => (s d).widen (hle d hd))).outcome = some (ps, e) ↔
      ∃ qs d, r.outcome = some (qs, d) ∧
        ∃ rs, (s d.skip).outcome = some (rs, e) ∧ ps = [.mk rule (c.upTo e) (qs ++ rs)] := by
  simp only [outcome_named_eq_some, outcome_andThen_eq_some, outcome_widen, exists_prop]
  constructor
  · rintro ⟨_, ⟨qs, d, hq, rs, hr, rfl⟩, rfl⟩
    exact ⟨qs, d, hq, rs, hr, rfl⟩
  · rintro ⟨qs, d, hq, rs, hr, rfl⟩
    exact ⟨_, ⟨qs, d, hq, rs, hr, rfl⟩, rfl⟩

theorem named_between_eq_some {rule : Rule} {a b : String} (o z : Char) (hc : c.skip = c)
    {hle : ∀ d : Cursor, d.size < c.size → ∀ d' : Cursor, d'.size < d.size + 1 →
      d'.size ≤ c.size}
    (ha : a = String.singleton o := by rfl) (hb : b = String.singleton z := by rfl)
    (ho : isMark o = true := by decide) (hz : isMark z = true := by decide) :
    (named rule c ((c.literal a).andThen fun d hd =>
        (s d).andThen fun d' hd' => (d'.literal b).widen (hle d hd d' hd'))).outcome =
        some (ps, e) ↔
      ∃ d, Steps c (.symbol o) d ∧
        ∃ qs d', (s d.skip).outcome = some (qs, d') ∧
          Steps d'.skip (.symbol z) e ∧ ps = [.mk rule (c.upTo e) qs] := by
  simp only [outcome_named_eq_some, outcome_andThen_eq_some, outcome_widen, exists_prop,
    mark_eq_some a o hc ha ho, mark_eq_some b z (skip_skip _) hb hz]
  constructor
  · rintro ⟨_, ⟨_, d, ⟨rfl, hd⟩, _, ⟨qs, d', hq, _, ⟨rfl, he⟩, rfl⟩, rfl⟩, rfl⟩
    exact ⟨d, hd, qs, d', hq, he, by rw [List.nil_append, List.append_nil]⟩
  · rintro ⟨d, hd, qs, d', hq, he, rfl⟩
    exact ⟨qs, ⟨_, d, ⟨rfl, hd⟩, _, ⟨qs, d', hq, _, ⟨rfl, he⟩, rfl⟩,
      by rw [List.nil_append, List.append_nil]⟩, rfl⟩

end Shapes

theorem signs_eq_some :
    c.signs.outcome = some (ps, e) ↔
      (∃ qs d, c.skip.sign.outcome = some (qs, d) ∧
        ∃ rs, d.signs.outcome = some (rs, e) ∧ ps = qs ++ rs) ∨
      c.skip.sign.outcome = none ∧ ps = [] ∧ e = c := by
  rw [signs]
  exact again_andMore_eq_some isSome_signs

theorem moreCalls_eq_some :
    c.moreCalls.outcome = some (ps, e) ↔
      (∃ qs d, c.skip.arguments.outcome = some (qs, d) ∧
        ∃ rs, d.moreCalls.outcome = some (rs, e) ∧ ps = qs ++ rs) ∨
      c.skip.arguments.outcome = none ∧ ps = [] ∧ e = c := by
  rw [moreCalls]
  exact again_andMore_eq_some isSome_moreCalls

theorem statements_eq_some :
    c.statements.outcome = some (ps, e) ↔
      (∃ qs d, c.skip.statement.outcome = some (qs, d) ∧
        ∃ rs, d.statements.outcome = some (rs, e) ∧ ps = qs ++ rs) ∨
      c.skip.statement.outcome = none ∧ ps = [] ∧ e = c := by
  rw [statements]
  exact again_andMore_eq_some isSome_statements

theorem moreOperands_eq_some {l : Level} :
    (c.moreOperands l).outcome = some (ps, e) ↔
      (∃ qs d, (c.skip.operator l).outcome = some (qs, d) ∧
        ∃ rs d', (d.skip.tighterOperand l).outcome = some (rs, d') ∧
          ∃ ts, (d'.moreOperands l).outcome = some (ts, e) ∧ ps = qs ++ (rs ++ ts)) ∨
      (∀ qs d, (c.skip.operator l).outcome = some (qs, d) →
        (d.skip.tighterOperand l).outcome = none) ∧ ps = [] ∧ e = c := by
  rw [moreOperands, outcome_again_eq_some, outcome_andThen_eq_none, outcome_andThen_eq_some]
  simp only [outcome_andMore_eq_some, outcome_widen, exists_prop]
  constructor
  · rintro (⟨qs, d, hd, x, ⟨rs, d', hd', ts, hts, rfl⟩, rfl⟩ | ⟨hnone, rfl, rfl⟩)
    · exact .inl ⟨qs, d, hd, rs, d', hd', ts, hts, rfl⟩
    · refine .inr ⟨fun qs d hd => ?_, rfl, rfl⟩
      rw [← outcome_andMore_total_eq_none]
      · exact hnone qs d hd
      · intro d' _
        rw [outcome_widen]
        exact isSome_moreOperands l d'
  · rintro (⟨qs, d, hd, rs, d', hd', ts, hts, rfl⟩ | ⟨hnone, rfl, rfl⟩)
    · exact .inl ⟨qs, d, hd, _, ⟨rs, d', hd', ts, hts, rfl⟩, rfl⟩
    · refine .inr ⟨fun qs d hd => ?_, rfl, rfl⟩
      exact outcome_andMore_of_none (hnone qs d hd)

theorem moreParameters_eq_some :
    c.moreParameters.outcome = some (ps, e) ↔
      (∃ d, Steps c.skip (.symbol ',') d ∧
        ∃ qs d', d.skip.identifier.outcome = some (qs, d') ∧
          ∃ rs, d'.moreParameters.outcome = some (rs, e) ∧ ps = qs ++ rs) ∨
      (∀ d, Steps c.skip (.symbol ',') d → d.skip.identifier.outcome = none) ∧
        ps = [] ∧ e = c := by
  rw [moreParameters]
  exact again_comma_eq_some isSome_moreParameters

theorem moreArguments_eq_some :
    c.moreArguments.outcome = some (ps, e) ↔
      (∃ d, Steps c.skip (.symbol ',') d ∧
        ∃ qs d', d.skip.expression.outcome = some (qs, d') ∧
          ∃ rs, d'.moreArguments.outcome = some (rs, e) ∧ ps = qs ++ rs) ∨
      (∀ d, Steps c.skip (.symbol ',') d → d.skip.expression.outcome = none) ∧
        ps = [] ∧ e = c := by
  rw [moreArguments]
  exact again_comma_eq_some isSome_moreArguments

/-- The semicolon of a statement is passed if it is there. -/
inductive Ends (c : Cursor) : Bool → Cursor → Prop
  | ended {e : Cursor} (h : Steps c (.symbol ';') e) : Ends c true e
  | unended (h : ∀ e, ¬ Steps c (.symbol ';') e) : Ends c false c

theorem semicolon_eq_some (hs : c.skip = c) :
    c.semicolon.outcome = some (ps, e) ↔ ps = [] ∧ ∃ ended, Ends c ended e := by
  rw [semicolon, outcome_orStay_eq_some, outcome_widen, mark_eq_some ";" ';' hs]
  constructor
  · rintro (⟨rfl, h⟩ | ⟨hnone, rfl, rfl⟩)
    · exact ⟨rfl, _, .ended h⟩
    · refine ⟨rfl, _, .unended fun d hd => ?_⟩
      rw [(mark_eq_some ";" ';' hs).mpr ⟨rfl, hd⟩] at hnone
      cases hnone
  · rintro ⟨rfl, _, ⟨h⟩ | ⟨h⟩⟩
    · exact .inl ⟨rfl, h⟩
    · refine .inr ⟨?_, rfl, rfl⟩
      rw [Option.eq_none_iff_forall_ne_some]
      rintro ⟨qs, d⟩ hd
      exact h d ((mark_eq_some ";" ';' hs).mp hd).2

theorem parameterList_eq_some :
    c.parameterList.outcome = some (ps, e) ↔
      (∃ qs d, c.identifier.outcome = some (qs, d) ∧
        ∃ rs, d.skip.moreParameters.outcome = some (rs, e) ∧ ps = qs ++ rs) ∨
      c.identifier.outcome = none ∧ ps = [] ∧ e = c := by
  rw [parameterList]
  exact orStay_andThen_eq_some isSome_moreParameters

theorem argumentList_eq_some :
    c.argumentList.outcome = some (ps, e) ↔
      (∃ qs d, c.expression.outcome = some (qs, d) ∧
        ∃ rs, d.skip.moreArguments.outcome = some (rs, e) ∧ ps = qs ++ rs) ∨
      c.expression.outcome = none ∧ ps = [] ∧ e = c := by
  rw [argumentList]
  exact orStay_andThen_eq_some isSome_moreArguments

theorem alternative_eq_some (hs : c.skip = c) :
    c.alternative.outcome = some (ps, e) ↔
      (∃ d, Steps c (.keyword .elseWord) d ∧
        ∃ qs, d.skip.block.outcome = some (qs, e) ∧
          ps = .mk .elseKeyword Keyword.elseWord.text.toList [] :: qs) ∨
      (∀ d, Steps c (.keyword .elseWord) d → d.skip.block.outcome = none) ∧ ps = [] ∧ e = c := by
  rw [alternative, outcome_orStay_eq_some, outcome_andThen_eq_none, outcome_andThen_eq_some]
  simp only [outcome_widen, exists_prop, keyword_eq_some hs]
  constructor
  · rintro (⟨_, d, ⟨rfl, hd⟩, qs, hq, rfl⟩ | ⟨hnone, rfl, rfl⟩)
    · exact .inl ⟨d, hd, qs, hq, rfl⟩
    · exact .inr ⟨fun d hd => hnone _ d ⟨rfl, hd⟩, rfl, rfl⟩
  · rintro (⟨d, hd, qs, hq, rfl⟩ | ⟨hnone, rfl, rfl⟩)
    · exact .inl ⟨_, d, ⟨rfl, hd⟩, qs, hq, rfl⟩
    · exact .inr ⟨fun _ d hd => hnone d hd.2, rfl, rfl⟩

theorem expression_eq_some :
    c.expression.outcome = some (ps, e) ↔
      ∃ qs, (c.operand .equality).outcome = some (qs, e) ∧
        ps = [.mk .expression (c.upTo e) qs] := by
  rw [expression, outcome_named_eq_some]

theorem operand_eq_some {l : Level} :
    (c.operand l).outcome = some (ps, e) ↔
      ∃ qs d, (c.tighterOperand l).outcome = some (qs, d) ∧
        ∃ rs, (d.skip.moreOperands l).outcome = some (rs, e) ∧
          ps = [.mk l.rule (c.upTo e) (qs ++ rs)] := by
  rw [operand]
  exact named_andThen_eq_some

theorem tighterOperand_of_some {l t : Level} (h : l.tighter? = some t) (c : Cursor) :
    c.tighterOperand l = c.operand t := by
  rw [tighterOperand]
  split
  · next h' =>
      cases h.symm.trans h'
      rfl
  · next h' =>
      rw [h] at h'
      cases h'

theorem tighterOperand_of_none {l : Level} (h : l.tighter? = none) (c : Cursor) :
    c.tighterOperand l = c.unary := by
  rw [tighterOperand]
  split
  · next h' =>
      rw [h] at h'
      cases h'
  · rfl

theorem unary_eq_some :
    c.unary.outcome = some (ps, e) ↔
      ∃ qs d, c.signs.outcome = some (qs, d) ∧
        ∃ rs, d.skip.call.outcome = some (rs, e) ∧ ps = [.mk .unary (c.upTo e) (qs ++ rs)] := by
  rw [unary]
  exact named_andThen_eq_some

theorem call_eq_some :
    c.call.outcome = some (ps, e) ↔
      ∃ qs d, c.primary.outcome = some (qs, d) ∧
        ∃ rs, d.skip.moreCalls.outcome = some (rs, e) ∧
          ps = [.mk .call (c.upTo e) (qs ++ rs)] := by
  rw [call]
  exact named_andThen_eq_some

theorem arguments_eq_some (hs : c.skip = c) :
    c.arguments.outcome = some (ps, e) ↔
      ∃ d, Steps c (.symbol '(') d ∧
        ∃ qs d', d.skip.argumentList.outcome = some (qs, d') ∧
          Steps d'.skip (.symbol ')') e ∧ ps = [.mk .arguments (c.upTo e) qs] := by
  rw [arguments]
  exact named_between_eq_some '(' ')' hs

theorem parameters_eq_some (hs : c.skip = c) :
    c.parameters.outcome = some (ps, e) ↔
      ∃ d, Steps c (.symbol '(') d ∧
        ∃ qs d', d.skip.parameterList.outcome = some (qs, d') ∧
          Steps d'.skip (.symbol ')') e ∧ ps = [.mk .parameters (c.upTo e) qs] := by
  rw [parameters]
  exact named_between_eq_some '(' ')' hs

theorem grouped_eq_some (hs : c.skip = c) :
    c.grouped.outcome = some (ps, e) ↔
      ∃ d, Steps c (.symbol '(') d ∧
        ∃ d', d.skip.expression.outcome = some (ps, d') ∧ Steps d'.skip (.symbol ')') e := by
  simp only [grouped, outcome_andThen_eq_some, outcome_widen, exists_prop,
    mark_eq_some "(" '(' hs, mark_eq_some ")" ')' (skip_skip _)]
  constructor
  · rintro ⟨_, d, ⟨rfl, hd⟩, _, ⟨qs, d', hq, _, ⟨rfl, he⟩, rfl⟩, rfl⟩
    exact ⟨d, hd, d', by rwa [List.nil_append, List.append_nil], he⟩
  · rintro ⟨d, hd, d', hq, he⟩
    exact ⟨_, d, ⟨rfl, hd⟩, _, ⟨ps, d', hq, _, ⟨rfl, he⟩, rfl⟩,
      by rw [List.nil_append, List.append_nil]⟩

theorem block_eq_some (hs : c.skip = c) :
    c.block.outcome = some (ps, e) ↔
      ∃ d, Steps c (.symbol '\x7b') d ∧
        ∃ qs d', d.skip.statements.outcome = some (qs, d') ∧
          Steps d'.skip (.symbol '\x7d') e ∧ ps = [.mk .block (c.upTo e) qs] := by
  rw [block]
  exact named_between_eq_some '\x7b' '\x7d' hs

theorem functionLiteral_eq_some (hs : c.skip = c) :
    c.functionLiteral.outcome = some (ps, e) ↔
      ∃ d, Steps c (.keyword .fnWord) d ∧
        ∃ qs d', d.skip.parameters.outcome = some (qs, d') ∧
          ∃ rs, d'.skip.block.outcome = some (rs, e) ∧
            ps = [.mk .functionLiteral (c.upTo e)
              (.mk .fnKeyword Keyword.fnWord.text.toList [] :: (qs ++ rs))] := by
  simp only [functionLiteral, outcome_named_eq_some, outcome_andThen_eq_some, outcome_widen,
    exists_prop, keyword_eq_some hs]
  constructor
  · rintro ⟨_, ⟨_, d, ⟨rfl, hd⟩, _, ⟨qs, d', hq, rs, hr, rfl⟩, rfl⟩, rfl⟩
    exact ⟨d, hd, qs, d', hq, rs, hr, rfl⟩
  · rintro ⟨d, hd, qs, d', hq, rs, hr, rfl⟩
    exact ⟨_, ⟨_, d, ⟨rfl, hd⟩, _, ⟨qs, d', hq, rs, hr, rfl⟩, rfl⟩, rfl⟩

theorem ifExpression_eq_some (hs : c.skip = c) :
    c.ifExpression.outcome = some (ps, e) ↔
      ∃ d, Steps c (.keyword .ifWord) d ∧
        ∃ d₁, Steps d.skip (.symbol '(') d₁ ∧
          ∃ qs d₂, d₁.skip.expression.outcome = some (qs, d₂) ∧
            ∃ d₃, Steps d₂.skip (.symbol ')') d₃ ∧
              ∃ rs d₄, d₃.skip.block.outcome = some (rs, d₄) ∧
                ∃ ts, d₄.skip.alternative.outcome = some (ts, e) ∧
                  ps = [.mk .ifExpression (c.upTo e)
                    (.mk .ifKeyword Keyword.ifWord.text.toList [] :: (qs ++ (rs ++ ts)))] := by
  simp only [ifExpression, outcome_named_eq_some, outcome_andThen_eq_some, outcome_widen,
    exists_prop, keyword_eq_some hs, mark_eq_some "(" '(' (skip_skip _),
    mark_eq_some ")" ')' (skip_skip _)]
  constructor
  · rintro ⟨_, ⟨_, d, ⟨rfl, hd⟩, _, ⟨_, d₁, ⟨rfl, h₁⟩, _, ⟨qs, d₂, hq, _, ⟨_, d₃, ⟨rfl, h₃⟩, _,
      ⟨rs, d₄, hr, ts, ht, rfl⟩, rfl⟩, rfl⟩, rfl⟩, rfl⟩, rfl⟩
    exact ⟨d, hd, d₁, h₁, qs, d₂, hq, d₃, h₃, rs, d₄, hr, ts, ht, rfl⟩
  · rintro ⟨d, hd, d₁, h₁, qs, d₂, hq, d₃, h₃, rs, d₄, hr, ts, ht, rfl⟩
    exact ⟨_, ⟨_, d, ⟨rfl, hd⟩, _, ⟨_, d₁, ⟨rfl, h₁⟩, _, ⟨qs, d₂, hq, _, ⟨_, d₃, ⟨rfl, h₃⟩, _,
      ⟨rs, d₄, hr, ts, ht, rfl⟩, rfl⟩, rfl⟩, rfl⟩, rfl⟩, rfl⟩

theorem letStatement_eq_some (hs : c.skip = c) :
    c.letStatement.outcome = some (ps, e) ↔
      ∃ d, Steps c (.keyword .letWord) d ∧
        ∃ qs d₁, d.skip.identifier.outcome = some (qs, d₁) ∧
          ∃ d₂, (d₁.skip.literal "=").outcome = some ([], d₂) ∧
            ∃ rs d₃, d₂.skip.expression.outcome = some (rs, d₃) ∧
              (∃ ended, Ends d₃.skip ended e) ∧
                ps = [.mk .letStatement (c.upTo e)
                  (.mk .letKeyword Keyword.letWord.text.toList [] :: (qs ++ rs))] := by
  simp only [letStatement, outcome_named_eq_some, outcome_andThen_eq_some, outcome_widen,
    exists_prop, keyword_eq_some hs, semicolon_eq_some (skip_skip _)]
  constructor
  · rintro ⟨_, ⟨_, d, ⟨rfl, hd⟩, _, ⟨qs, d₁, hq, _, ⟨us, d₂, h₂, _, ⟨rs, d₃, hr, _, ⟨rfl, he⟩,
      rfl⟩, rfl⟩, rfl⟩, rfl⟩, rfl⟩
    obtain rfl := outcome_literal_pieces h₂
    exact ⟨d, hd, qs, d₁, hq, d₂, h₂, rs, d₃, hr, he, by rw [List.append_nil]; rfl⟩
  · rintro ⟨d, hd, qs, d₁, hq, d₂, h₂, rs, d₃, hr, he, rfl⟩
    exact ⟨_, ⟨_, d, ⟨rfl, hd⟩, _, ⟨qs, d₁, hq, _, ⟨_, d₂, h₂, _, ⟨rs, d₃, hr, _, ⟨rfl, he⟩,
      rfl⟩, rfl⟩, rfl⟩, rfl⟩, by rw [List.append_nil]; rfl⟩

theorem returnStatement_eq_some (hs : c.skip = c) :
    c.returnStatement.outcome = some (ps, e) ↔
      ∃ d, Steps c (.keyword .returnWord) d ∧
        ∃ qs d₁, d.skip.expression.outcome = some (qs, d₁) ∧
          (∃ ended, Ends d₁.skip ended e) ∧
            ps = [.mk .returnStatement (c.upTo e)
              (.mk .returnKeyword Keyword.returnWord.text.toList [] :: qs)] := by
  simp only [returnStatement, outcome_named_eq_some, outcome_andThen_eq_some, outcome_widen,
    exists_prop, keyword_eq_some hs, semicolon_eq_some (skip_skip _)]
  constructor
  · rintro ⟨_, ⟨_, d, ⟨rfl, hd⟩, _, ⟨qs, d₁, hq, _, ⟨rfl, he⟩, rfl⟩, rfl⟩, rfl⟩
    exact ⟨d, hd, qs, d₁, hq, he, by rw [List.append_nil]; rfl⟩
  · rintro ⟨d, hd, qs, d₁, hq, he, rfl⟩
    exact ⟨_, ⟨_, d, ⟨rfl, hd⟩, _, ⟨qs, d₁, hq, _, ⟨rfl, he⟩, rfl⟩, rfl⟩,
      by rw [List.append_nil]; rfl⟩

theorem expressionStatement_eq_some :
    c.expressionStatement.outcome = some (ps, e) ↔
      ∃ qs d, c.expression.outcome = some (qs, d) ∧
        (∃ ended, Ends d.skip ended e) ∧ ps = [.mk .expressionStatement (c.upTo e) qs] := by
  simp only [expressionStatement, outcome_named_eq_some, outcome_andThen_eq_some, outcome_widen,
    exists_prop, semicolon_eq_some (skip_skip _)]
  constructor
  · rintro ⟨_, ⟨qs, d, hq, _, ⟨rfl, he⟩, rfl⟩, rfl⟩
    exact ⟨qs, d, hq, he, by rw [List.append_nil]⟩
  · rintro ⟨qs, d, hq, he, rfl⟩
    exact ⟨_, ⟨qs, d, hq, _, ⟨rfl, he⟩, rfl⟩, by rw [List.append_nil]⟩

theorem endOfInput_eq_some :
    c.endOfInput.outcome = some (ps, e) ↔
      c.rest = [] ∧ e = c ∧ ps = [.mk .endOfInput (c.upTo c) []] := by
  rw [endOfInput, outcome_named_eq_some]
  constructor
  · rintro ⟨qs, hq, rfl⟩
    split at hq
    · next hend =>
        rw [outcome_passed] at hq
        cases hq
        exact ⟨List.isEmpty_iff.mp hend, rfl, rfl⟩
    · rw [outcome_failure] at hq
      cases hq
  · rintro ⟨hend, rfl, rfl⟩
    refine ⟨[], ?_, rfl⟩
    rw [if_pos (List.isEmpty_iff.mpr hend), outcome_passed]

theorem program_eq_some :
    c.program.outcome = some (ps, e) ↔
      ∃ qs d, c.skip.statements.outcome = some (qs, d) ∧ d.skip.rest = [] ∧ e = d.skip ∧
        ps = [.mk .program (c.upTo e) (qs ++ [.mk .endOfInput (e.upTo e) []])] := by
  simp only [program, outcome_named_eq_some, outcome_andThen_eq_some, outcome_widen, exists_prop,
    outcome_passed, endOfInput_eq_some]
  constructor
  · rintro ⟨_, ⟨_, d, hd, _, ⟨qs, d', hq, _, ⟨hend, rfl, rfl⟩, rfl⟩, rfl⟩, rfl⟩
    cases hd
    exact ⟨qs, d', hq, hend, rfl, rfl⟩
  · rintro ⟨qs, d, hq, hend, rfl, rfl⟩
    exact ⟨_, ⟨_, c, rfl, _, ⟨qs, d, hq, _, ⟨hend, rfl, rfl⟩, rfl⟩, rfl⟩, rfl⟩

end Cursor
end MonkeyLang
