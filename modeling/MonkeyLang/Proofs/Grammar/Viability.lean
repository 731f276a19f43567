import MonkeyLang.Proofs.Grammar.Completion

/-!
What has been read where a reading got furthest can be completed. Each rule gets as far as one of
its parts, and what the parts before it have passed is the beginning of what the rule reads. A way
that is given up later counts as well: it could have been gone to its end, had the text gone on
differently.
-/
namespace MonkeyLang
namespace Cursor

open Reading

/-- The tokens that are passed on the way to a place. The first half of `==` and `!=` is a token of
its own if the text ends behind it. -/
inductive Reaches (c : Cursor) : List Token → Nat → Prop
  | whole {d : Cursor} {ts : List Token} (h : Passes c ts d) : Reaches c ts d.offset
  | half {d : Cursor} {ts : List Token} {ch : Char} {cs : List Char} (h : Passes c ts d)
      (hd : d.rest = ch :: cs) (hch : ch = '=' ∨ ch = '!') :
      Reaches c (ts ++ [.symbol ch]) (d.offset + 1)

/-- What has been read up to a place can be completed. Nothing has been read at the first place. -/
def Viable (c : Cursor) (P : List Token → Prop) (n : Nat) : Prop :=
  n = 0 ∨ ∃ ts, Reaches c ts n ∧ Completable P ts

variable {c d : Cursor} {P Q : List Token → Prop} {ts : List Token} {n : Nat}

theorem Reaches.trans {us : List Token} (h : Passes c ts d) (hd : Reaches d us n) :
    Reaches c (ts ++ us) n := by
  cases hd with
  | whole h' => exact .whole (h.trans h')
  | half h' hd hch =>
      rw [← List.append_assoc]
      exact .half (h.trans h') hd hch

/-- A token that can go on a phrase is never half of a token. -/
theorem Reaches.exists_steps {t : Token} (h : Reaches c (t :: ts) n) (ht : t.joins = true) :
    ∃ d, Steps c.skip t d := by
  generalize hus : t :: ts = us at h
  cases h with
  | whole h => exact h.head_eq hus.symm
  | @half d us ch cs h hd hch =>
      cases us with
      | nil =>
          cases hus
          rcases hch with rfl | rfl <;> exact absurd ht (by decide)
      | cons u us =>
          cases hus
          exact h.head_eq rfl

theorem Reaches.exists_taken (h : Reaches c ts n) :
    ∃ taken rest, c.rest = taken ++ rest ∧ n = c.offset + taken.length ∧ tokensOf taken = ts := by
  cases h with
  | whole h =>
      obtain ⟨taken, hrest, hoffset, htokens⟩ := h.exists_taken
      exact ⟨taken, _, hrest, hoffset, htokens⟩
  | @half d us ch cs h hd hch =>
      obtain ⟨taken, hrest, hoffset, htokens⟩ := h.exists_taken_append (a := [ch]) (b := cs) hd
      refine ⟨taken ++ [ch], cs, ?_, ?_, ?_⟩
      · rw [hrest, hd, List.append_assoc, List.singleton_append]
      · rw [hoffset, List.length_append, ← Nat.add_assoc]
        rfl
      · have hlegible : (Token.symbol ch).Legible := by rcases hch with rfl | rfl <;> decide
        have hone : tokensOf [ch] = [.symbol ch] := by simpa [Token.text] using tokensOf_text hlegible
        rw [htokens, hone]

theorem viable_zero : Viable c P 0 := .inl rfl

theorem viable_of_passes (h : Passes c ts d) (hP : Completable P ts) : Viable c P d.offset :=
  .inr ⟨ts, .whole h, hP⟩

/-- In the middle of a token that ends with `=`. -/
theorem viable_of_half {e : Cursor} {t : Token} (ch : Char) (h : Passes c ts d) (ht : Steps d t e)
    (hch : ch = '=' ∨ ch = '!') (htext : t.text.toList = [ch, '='])
    (hP : Completable P (ts ++ [.symbol ch])) : Viable c P (d.advance 1).offset := by
  have hd : d.rest = ch :: '=' :: e.rest := by
    rw [ht.rest_eq, htext]
    rfl
  exact .inr ⟨_, .half h hd hch, hP⟩

theorem Viable.extend (hd : Viable d P n) (h : Passes c ts d)
    (hQ : ∀ us, P us → Completable Q (ts ++ us)) : Viable c Q n := by
  obtain hzero | ⟨us, hreach, hus⟩ := hd
  · exact .inl hzero
  · exact .inr ⟨ts ++ us, hreach.trans h, hus.extend hQ⟩

theorem Viable.imp (h : Viable c P n) (hQ : ∀ us, P us → Completable Q us) : Viable c Q n :=
  h.extend (.refl c) hQ

section Lists

variable {r : (d : Cursor) → Reading d.size} {s : (d : Cursor) → Reading (d.size + 1)}

/-- Where less than a bound is left, an item gets no further than it can be completed, and what is
read for it is one. -/
structure ItemBelow (n : Nat) (P : List Token → Prop) (r : (d : Cursor) → Reading d.size) :
    Prop where
  viable (d : Cursor) (hs : d.skip = d) (hd : d.size < n) : Viable d P (r d).furthest
  sound (d : Cursor) (hs : d.skip = d) {e : Cursor} {ps : List Piece}
    (h : (r d).outcome = some (ps, e)) : ∃ ts, P ts ∧ Passes d ts e

theorem viable_more {c : Cursor} (hr : ItemBelow n P r)
    (hle : ∀ c d : Cursor, d.size ≤ c.size → ∀ d' : Cursor, d'.size < d.size →
      ∀ d'' : Cursor, d''.size < d'.size → d''.size + 1 ≤ c.size + 1)
    (hs : ∀ c, s c = again c fun d hd => (d.literal ",").andThen fun d' hd' =>
      (r d').andMore fun d'' hd'' => (s d'').widen (hle c d hd d' hd' d'' hd''))
    (hc : c.size ≤ n) : Viable c (IsMore P) (s c).furthest := by
  rw [hs, furthest_again]
  refine at_andThen (at_literal viable_zero _) fun ps d hd => ?_
  obtain ⟨-, hcomma⟩ := (mark_eq_some "," ',' (skip_skip c)).mp hd
  have hpast : Passes c [.symbol ','] d.skip := .layout (.step hcomma (.layout (.refl _)))
  have h₁ := c.size_skip_le
  have h₂ := hcomma.size_lt
  have h₃ := d.size_skip_le
  refine at_andMore ?_ fun qs e he => ?_
  · refine (hr.viable d.skip (skip_skip d) (by omega)).extend hpast fun us hus => .whole ?_
    have hone := isMore_nil.cons hus
    rwa [List.append_nil] at hone
  · have h₄ := size_lt_of_outcome he
    obtain ⟨ts, hts, hpasses⟩ := hr.sound d.skip (skip_skip d) he
    rw [furthest_widen]
    exact (viable_more hr hle hs (by omega)).extend (hpast.trans hpasses)
      fun us hus => .whole (hus.cons hts)
termination_by c.size

theorem viable_list (hr : ItemBelow n P r)
    (hle : ∀ c d : Cursor, d.size ≤ c.size → ∀ d' : Cursor, d'.size < d.size →
      ∀ d'' : Cursor, d''.size < d'.size → d''.size + 1 ≤ c.size + 1)
    (hs : ∀ c, s c = again c fun d hd => (d.literal ",").andThen fun d' hd' =>
      (r d').andMore fun d'' hd'' => (s d'').widen (hle c d hd d' hd' d'' hd''))
    {hlt : ∀ d : Cursor, d.size < c.size → d.size + 1 ≤ c.size + 1}
    (hsettled : c.skip = c) (hc : c.size < n) :
    Viable c (IsList P) (orStay c ((r c).andThen fun d hd => (s d).widen (hlt d hd))).furthest := by
  rw [furthest_orStay]
  refine at_andThen ?_ fun ps d hd => ?_
  · refine (hr.viable c hsettled hc).imp fun us hus => .whole ?_
    have hone := isList_append hus isMore_nil
    rwa [List.append_nil] at hone
  · have h₁ := size_skip_lt_of_outcome hd
    obtain ⟨ts, hts, hpasses⟩ := hr.sound c hsettled hd
    rw [furthest_widen]
    exact (viable_more hr hle hs (by omega)).extend hpasses.skip
      fun us hus => .whole (isList_append hts hus)

theorem viable_between {rule : Rule} {a b : String} (o z : Char) (hc : c.skip = c) (hP : P [])
    (hs : ∀ d, Steps c (.symbol o) d → Viable d.skip P (s d.skip).furthest)
    {hle : ∀ d : Cursor, d.size < c.size → ∀ d' : Cursor, d'.size < d.size + 1 →
      d'.size ≤ c.size}
    (ha : a = String.singleton o := by rfl) (ho : isMark o = true := by decide)
    (hlegible : (Token.symbol o).Legible ∧ (Token.symbol z).Legible := by decide) :
    Viable c (Between o z P) (named rule c ((c.literal a).andThen fun d hd =>
      (s d).andThen fun d' hd' => (d'.literal b).widen (hle d hd d' hd'))).furthest := by
  refine at_named ?_ (at_andThen (at_literal viable_zero _) fun ps d hd =>
    at_andThen ?_ fun qs e _ => at_literal viable_zero _)
  · exact viable_of_passes (.refl c)
      ⟨[.symbol o, .symbol z], by simp [hlegible], [], hP, rfl⟩
  · obtain ⟨-, hstep⟩ := (mark_eq_some a o hc ha ho).mp hd
    exact (hs d hstep).extend (.step hstep (.layout (.refl _)))
      fun us hus => ⟨[.symbol z], by simp [hlegible], us, hus, rfl⟩

end Lists

theorem identifier_below (n : Nat) : ItemBelow n IsParameter identifier where
  viable d _ _ := at_identifier viable_zero
    (viable_of_passes (.refl d) ⟨[.name "a"], by simp [legible_name], "a", rfl⟩)
  sound d hs {e ps} h := by
    obtain ⟨name, -, hname⟩ := (identifier_eq_some hs).mp h
    exact ⟨_, ⟨name, rfl⟩, hname.passes⟩

theorem viable_parameters (hs : c.skip = c) :
    Viable c (Between '(' ')' (IsList IsParameter)) c.parameters.furthest := by
  rw [parameters]
  refine viable_between '(' ')' hs isList_nil fun d hd => ?_
  rw [parameterList]
  refine viable_list (identifier_below c.size) ?_ (fun e => ?_) (skip_skip d) ?_
  · omega
  · rw [moreParameters]
  · have h₁ := hd.size_lt
    have h₂ := d.size_skip_le
    omega

/-- The rules for expressions and statements get no further than they can be completed. -/
structure Viability (c : Cursor) : Prop where
  expression : Viable c (IsPhrase 0) c.expression.furthest
  tighterOperand (l : Level) : Viable c (IsPhrase (l.rank + 1)) (c.tighterOperand l).furthest
  statement : Viable c IsClause c.statement.furthest

/-- All rules are viable where less than a bound is left. -/
def ViabilityBelow (n : Nat) : Prop := ∀ c : Cursor, c.skip = c → c.size < n → Viability c

theorem expression_below (ih : ViabilityBelow n) : ItemBelow n (IsPhrase 0) expression where
  viable d hs hd := (ih d hs hd).expression
  sound d hs {e ps} h := by
    obtain ⟨p, hp, hpasses⟩ := (sound d hs).expression h
    exact ⟨p.tokens, ⟨p, hp, Nat.zero_le _, rfl⟩, hpasses⟩

theorem viable_arguments (ih : ViabilityBelow n) (hs : c.skip = c) (hc : c.size ≤ n) :
    Viable c (Between '(' ')' (IsList (IsPhrase 0))) c.arguments.furthest := by
  rw [arguments]
  refine viable_between '(' ')' hs isList_nil fun d hd => ?_
  rw [argumentList]
  refine viable_list (expression_below ih) ?_ (fun e => ?_) (skip_skip d) ?_
  · omega
  · rw [moreArguments]
  · have h₁ := hd.size_lt
    have h₂ := d.size_skip_le
    omega

theorem viable_statements {c : Cursor} (ih : ViabilityBelow n) (hc : c.size < n) :
    Viable c IsClauses c.statements.furthest := by
  have hskip := c.size_skip_le
  rw [statements, furthest_again]
  refine at_andMore_lt ?_ fun ps d hd hlt => ?_
  · exact (ih c.skip (skip_skip c) (by omega)).statement.extend (.layout (.refl _))
      fun us hus => .whole hus.isClauses
  have hsize := size_lt_of_outcome hd
  rw [furthest_widen] at hlt ⊢
  obtain ⟨cl, hcl, hpasses, hstop⟩ := (sound c.skip (skip_skip c)).statement hd
  obtain hzero | ⟨us, hreach, vs, hvs, cs, hcs, htokens⟩ :=
    viable_statements (c := d) ih (by omega)
  · rw [hzero]
    exact viable_zero
  refine .inr ⟨cl.tokens ++ us, hreach.trans (.layout hpasses), ?_⟩
  cases us with
  | nil => exact .whole ⟨[cl], ⟨hcl, .inr rfl, trivial⟩, rfl⟩
  | cons t us =>
      have hnext : cl.ended = true ∨ (clauseTokens cs).head?.any Token.joins = false := by
        refine hstop.imp_right fun hstop => ?_
        rw [htokens, List.cons_append, List.head?_cons, Option.any_some, ← Bool.not_eq_true]
        intro hjoins
        -- What the next clause begins with would have been tried as a part of this one.
        obtain ⟨e, he⟩ := hreach.exists_steps hjoins
        exact absurd (hstop.statements_le he hjoins) (Nat.not_le.mpr hlt)
      refine ⟨vs, hvs, cl :: cs, ⟨hcl, hnext, hcs⟩, ?_⟩
      rw [clauseTokens, htokens, List.append_assoc]
termination_by c.size

theorem viable_block (ih : ViabilityBelow n) (hs : c.skip = c) (hc : c.size ≤ n) :
    Viable c (Between '\x7b' '\x7d' IsClauses) c.block.furthest := by
  rw [block]
  refine viable_between '\x7b' '\x7d' hs isClauses_nil fun d hd => viable_statements ih ?_
  have h₁ := hd.size_lt
  have h₂ := d.size_skip_le
  omega

theorem viable_functionLiteral (ih : ViabilityBelow n) (hs : c.skip = c) (hc : c.size ≤ n) :
    Viable c (IsPhrase 7) c.functionLiteral.furthest := by
  have hstart := viable_of_passes (.refl c) (completable_phrase (Nat.le_refl 7))
  rw [functionLiteral]
  refine at_named hstart (at_andThen (at_keyword viable_zero hstart _ _) fun ps d hd => ?_)
  obtain ⟨-, hword⟩ := (keyword_eq_some hs).mp hd
  have hfn : Passes c [.keyword .fnWord] d.skip := .step hword (.layout (.refl _))
  refine at_andThen ?_ fun qs e he => ?_
  · exact (viable_parameters (skip_skip d)).extend hfn fun us hus =>
      ⟨braced [], by decide, isPhrase_function hus between_braces_nil⟩
  · have h₁ := hword.size_lt
    have h₂ := d.size_skip_le
    have h₃ := size_skip_lt_of_outcome he
    obtain ⟨names, hnames⟩ := parameters_sound (skip_skip d) he
    rw [furthest_widen]
    exact (viable_block ih (skip_skip e) (by omega)).extend (hfn.trans hnames.skip) fun us hus =>
      .whole (isPhrase_function (between_parameters names) hus)

theorem viable_alternative (ih : ViabilityBelow n) (hs : c.skip = c) (hc : c.size ≤ n) :
    Viable c IsAlternative c.alternative.furthest := by
  have hstart : Viable c IsAlternative c.offset := viable_of_passes (.refl c) (.whole (.inl rfl))
  rw [alternative, furthest_orStay]
  refine at_andThen (at_keyword viable_zero hstart _ _) fun ps d hd => ?_
  obtain ⟨-, hword⟩ := (keyword_eq_some hs).mp hd
  have h₁ := hword.size_lt
  have h₂ := d.size_skip_le
  rw [furthest_widen]
  exact (viable_block ih (skip_skip d) (by omega)).extend (.step hword (.layout (.refl _)))
    fun us hus => .whole (.inr ⟨us, hus, rfl⟩)

theorem viable_ifExpression (ih : ViabilityBelow n) (hs : c.skip = c) (hc : c.size ≤ n) :
    Viable c (IsPhrase 7) c.ifExpression.furthest := by
  have hstart := viable_of_passes (.refl c) (completable_phrase (Nat.le_refl 7))
  rw [ifExpression]
  refine at_named hstart (at_andThen (at_keyword viable_zero hstart _ _) fun ps d hd => ?_)
  obtain ⟨-, hword⟩ := (keyword_eq_some hs).mp hd
  refine at_andThen (at_literal viable_zero _) fun qs d₁ h₁ => ?_
  obtain ⟨-, hopen⟩ := (mark_eq_some "(" '(' (skip_skip d)).mp h₁
  have l₁ := hword.size_lt
  have l₂ := d.size_skip_le
  have l₃ := hopen.size_lt
  have l₄ := d₁.size_skip_le
  have hif : Passes c [.keyword .ifWord, .symbol '('] d₁.skip :=
    .step hword (.layout (.step hopen (.layout (.refl _))))
  refine at_andThen ?_ fun rs d₂ h₂ => ?_
  · refine (ih d₁.skip (skip_skip d₁) (by omega)).expression.extend hif fun us hus =>
      ⟨.symbol ')' :: braced [], by decide, ?_⟩
    simpa [parenthesized] using isPhrase_conditional hus between_braces_nil (.inl rfl)
  refine at_andThen (at_literal viable_zero _) fun ss d₃ h₃ => ?_
  obtain ⟨-, hclose⟩ := (mark_eq_some ")" ')' (skip_skip d₂)).mp h₃
  obtain ⟨test, htest, hpasses⟩ := (sound d₁.skip (skip_skip d₁)).expression h₂
  have l₅ := size_skip_lt_of_outcome h₂
  have l₆ := hclose.size_lt
  have l₇ := d₃.size_skip_le
  have hhead : Passes c (.keyword .ifWord :: parenthesized test.tokens) d₃.skip :=
    hif.trans (hpasses.trans (.layout (.step hclose (.layout (.refl _)))))
  have htest : IsPhrase 0 test.tokens := ⟨test, htest, Nat.zero_le _, rfl⟩
  refine at_andThen ?_ fun ts d₄ h₄ => ?_
  · refine (viable_block ih (skip_skip d₃) (by omega)).extend hhead fun us hus => .whole ?_
    have hphrase := isPhrase_conditional htest hus (.inl rfl)
    rwa [List.append_nil] at hphrase
  obtain ⟨yes, hyes, hbody⟩ := block_sound (soundBelow _) (skip_skip d₃) (Nat.le_refl _) h₄
  have hyes : Between '\x7b' '\x7d' IsClauses (braced (clauseTokens yes)) :=
    ⟨_, ⟨yes, hyes, rfl⟩, rfl⟩
  have l₈ := size_skip_lt_of_outcome h₄
  rw [furthest_widen]
  exact (viable_alternative ih (skip_skip d₄) (by omega)).extend (hhead.trans hbody.skip)
    fun us hus => .whole (isPhrase_conditional htest hyes hus)

theorem viable_grouped (ih : ViabilityBelow n) (hs : c.skip = c) (hc : c.size ≤ n) :
    Viable c (IsPhrase 7) c.grouped.furthest := by
  rw [grouped]
  refine at_andThen (at_literal viable_zero _) fun ps d hd =>
    at_andThen ?_ fun qs e _ => at_literal viable_zero _
  obtain ⟨-, hopen⟩ := (mark_eq_some "(" '(' hs).mp hd
  have h₁ := hopen.size_lt
  have h₂ := d.size_skip_le
  exact (ih d.skip (skip_skip d) (by omega)).expression.extend (.step hopen (.layout (.refl _)))
    fun us hus => ⟨[.symbol ')'], by decide, isPhrase_grouped hus⟩

theorem viable_primary (ih : ViabilityBelow n) (hs : c.skip = c) (hc : c.size ≤ n) :
    Viable c (IsPhrase 7) c.primary.furthest := by
  have hstart := viable_of_passes (.refl c) (completable_phrase (Nat.le_refl 7))
  rw [primary]
  exact at_orElse (at_integer viable_zero hstart) fun _ =>
    at_orElse (at_boolean viable_zero hstart) fun _ =>
    at_orElse (viable_functionLiteral ih hs hc) fun _ =>
    at_orElse (viable_ifExpression ih hs hc) fun _ =>
    at_orElse (at_identifier viable_zero hstart) fun _ => viable_grouped ih hs hc

theorem viable_moreCalls {c : Cursor} (ih : ViabilityBelow n) (hc : c.size ≤ n) :
    Viable c (Extends 6) c.moreCalls.furthest := by
  have hskip := c.size_skip_le
  rw [moreCalls, furthest_again]
  refine at_andMore ?_ fun ps d hd => ?_
  · exact (viable_arguments ih (skip_skip c) (by omega)).extend (.layout (.refl _))
      fun us hus => .whole (extends_arguments hus)
  · have hsize := size_lt_of_outcome hd
    obtain ⟨args, hargs, hpasses⟩ :=
      arguments_sound (soundBelow _) (skip_skip c) (Nat.le_refl _) hd
    rw [furthest_widen]
    exact (viable_moreCalls ih (by omega)).extend (.layout hpasses) fun us hus =>
      .whole ((extends_arguments (between_arguments hargs)).append hus)
termination_by c.size

theorem viable_call (ih : ViabilityBelow n) (hs : c.skip = c) (hc : c.size ≤ n) :
    Viable c (IsPhrase 6) c.call.furthest := by
  rw [call]
  refine at_named ?_ (at_andThen ?_ fun ps d hd => ?_)
  · exact viable_of_passes (.refl c) (completable_phrase (by decide))
  · exact (viable_primary ih hs hc).imp fun us hus => .whole (hus.mono (by decide))
  · have hsize := size_skip_lt_of_outcome hd
    obtain ⟨p, hp, hprec, hpasses⟩ := primary_sound (soundBelow _) hs (Nat.le_refl _) hd
    rw [furthest_widen]
    exact (viable_moreCalls ih (by omega)).extend hpasses.skip fun us hus =>
      .whole (hus _ ⟨p, hp, by omega, rfl⟩)

theorem viable_of_notEqual {e : Cursor} (ops : List UnaryOp)
    (h : Passes c (ops.map UnaryOp.token) d) (he : Steps d .notEqual e) :
    Viable c (IsPhrase 5) (d.advance 1).offset := by
  have hnot : IsPhrase 5 [.symbol '!', .name "a"] :=
    isPhrase_signed [.not] (isPhrase_name "a" (by decide))
  refine viable_of_half '!' h he (.inr rfl) rfl ⟨[.name "a"], by decide, ?_⟩
  rw [List.append_assoc]
  exact isPhrase_signed ops hnot

theorem viable_signs {c : Cursor} : Viable c (IsPhrase 5) c.signs.furthest := by
  have hstart : Viable c (IsPhrase 5) c.skip.offset :=
    viable_of_passes (.layout (.refl _)) (completable_phrase (by decide))
  rw [signs, furthest_again]
  refine at_andMore (at_sign viable_zero hstart) fun ps d hd => ?_
  have h₁ := c.size_skip_le
  have h₂ := size_lt_of_outcome hd
  rw [furthest_widen]
  obtain ⟨op, hop⟩ | ⟨⟨f, hf⟩, hhalf⟩ := steps_of_sign (skip_skip c) hd
  · exact viable_signs.extend (.layout hop.passes) fun us hus => .whole (isPhrase_signed [op] hus)
  · obtain ⟨hsettled, -⟩ := steps_of_half hhalf
    have hnone := sign_eq_none_of_half hhalf
    have hplace := viable_of_notEqual [] (.layout (.refl _)) hf
    rw [← eq_advance_of_sign hd] at hplace
    rw [furthest_signs, hsettled, hnone]
    exact at_sign viable_zero hplace
termination_by c.size

theorem viable_unary (ih : ViabilityBelow n) (hc : c.size ≤ n) :
    Viable c (IsPhrase 5) c.unary.furthest := by
  rw [unary]
  refine at_named ?_ (at_andThen viable_signs fun ps d hd => ?_)
  · exact viable_of_passes (.refl c) (completable_phrase (by decide))
  have hsize := size_skip_lt_of_outcome hd
  rw [furthest_widen]
  obtain ⟨ops, hops⟩ | ⟨⟨ops, e, f, hops, hf, rfl⟩, hhalf⟩ := signs_sound hd
  · exact (viable_call ih (skip_skip d) (by omega)).extend hops.skip fun us hus =>
      .whole (isPhrase_signed ops (hus.mono (by decide)))
  · obtain ⟨hsettled, -⟩ := steps_of_half hhalf
    rw [hsettled]
    exact at_call_of_half viable_zero (viable_of_notEqual ops hops hf) hhalf

theorem viable_moreOperands {c : Cursor} {l : Level} (ih : ViabilityBelow n) (hc : c.size ≤ n) :
    Viable c (Extends l.rank) (c.moreOperands l).furthest := by
  have hstart : Viable c (Extends l.rank) c.skip.offset :=
    viable_of_passes (.layout (.refl _)) (.whole extends_nil)
  rw [moreOperands, furthest_again]
  refine at_andThen (at_operator viable_zero hstart l) fun ps d hd => ?_
  obtain ⟨op, rfl, -, hop⟩ := (operator_eq_some (skip_skip c)).mp hd
  have h₁ := c.size_skip_le
  have h₂ := hop.size_lt
  have h₃ := d.size_skip_le
  have hpast : Passes c [op.token] d.skip := .layout (.step hop (.layout (.refl _)))
  refine at_andMore ?_ fun qs e he => ?_
  · exact ((ih d.skip (skip_skip d) (by omega)).tighterOperand op.level).extend hpast
      fun us hus => .whole (extends_operation hus)
  · have h₄ := size_lt_of_outcome he
    obtain ⟨right, hright, hlt, hpasses⟩ :=
      (sound d.skip (skip_skip d)).tighterOperand op.level he
    rw [furthest_widen]
    exact (viable_moreOperands ih (by omega)).extend (hpast.trans hpasses) fun us hus =>
      .whole ((extends_operation ⟨right, hright, hlt, rfl⟩).append hus)
termination_by c.size

theorem viable_operand (l : Level) (ih : ViabilityBelow n) (hs : c.skip = c) (hc : c.size ≤ n)
    (hl : Viable c (IsPhrase (l.rank + 1)) (c.tighterOperand l).furthest) :
    Viable c (IsPhrase l.rank) (c.operand l).furthest := by
  have hrank := l.rank_le
  rw [operand]
  refine at_named ?_ (at_andThen ?_ fun ps d hd => ?_)
  · exact viable_of_passes (.refl c) (completable_phrase (by omega))
  · exact hl.imp fun us hus => .whole (hus.mono (Nat.le_succ _))
  · have hsize := size_skip_lt_of_outcome hd
    obtain ⟨p, hp, hlt, hpasses⟩ := (sound c hs).tighterOperand l hd
    rw [furthest_widen]
    exact (viable_moreOperands ih (by omega)).extend hpasses.skip fun us hus =>
      .whole (hus _ ⟨p, hp, Nat.le_of_lt hlt, rfl⟩)

theorem viable_tighterOperand (l : Level) (ih : ViabilityBelow n) (hs : c.skip = c)
    (hc : c.size ≤ n) : Viable c (IsPhrase (l.rank + 1)) (c.tighterOperand l).furthest := by
  cases ht : l.tighter? with
  | none =>
      rw [tighterOperand_of_none ht, Level.rank_of_tighter_none ht]
      exact viable_unary ih hc
  | some t =>
      have hrank := Level.rank_tighter ht
      rw [tighterOperand_of_some ht, ← hrank]
      exact viable_operand t ih hs hc (viable_tighterOperand t ih hs hc)
termination_by 4 - l.rank
decreasing_by
  have := t.rank_le
  omega

theorem viable_expression (ih : ViabilityBelow n) (hs : c.skip = c) (hc : c.size ≤ n) :
    Viable c (IsPhrase 0) c.expression.furthest := by
  rw [expression]
  refine at_named (viable_of_passes (.refl c) (completable_phrase (by decide))) ?_
  exact (viable_operand .equality ih hs hc (viable_tighterOperand .equality ih hs hc)).imp
    fun us hus => .whole (hus.mono (Nat.zero_le _))

theorem viable_letStatement (ih : ViabilityBelow n) (hs : c.skip = c) (hc : c.size ≤ n) :
    Viable c IsClause c.letStatement.furthest := by
  have hstart := viable_of_passes (.refl c) completable_clause
  rw [letStatement]
  refine at_named hstart (at_andThen (at_keyword viable_zero hstart _ _) fun ps d hd => ?_)
  obtain ⟨-, hword⟩ := (keyword_eq_some hs).mp hd
  have hvalue := isPhrase_name "a" (Nat.zero_le 7)
  have hlet : Passes c [.keyword .letWord] d.skip := .step hword (.layout (.refl _))
  refine at_andThen (at_identifier viable_zero ?_) fun qs e he => ?_
  · exact viable_of_passes hlet ⟨[.name "a", .symbol '=', .name "a", .symbol ';'], by decide,
      isClause_binding "a" hvalue⟩
  obtain ⟨name, -, hname⟩ := (identifier_eq_some (skip_skip d)).mp he
  have hbound : Passes c [.keyword .letWord, .name name] e.skip :=
    hlet.trans (.step hname (.layout (.refl _)))
  refine at_andThen (at_literal viable_zero _) fun rs f hf =>
    at_andThen ?_ fun ts g _ => at_semicolon viable_zero
  obtain hassign | ⟨⟨g, hg⟩, hhalf⟩ := steps_of_assign (skip_skip e) hf
  · have h₁ := hword.size_lt
    have h₂ := d.size_skip_le
    have h₃ := size_skip_lt_of_outcome he
    have h₄ := size_skip_lt_of_outcome hf
    exact (ih f.skip (skip_skip f) (by omega)).expression.extend
      (hbound.trans (.step hassign (.layout (.refl _))))
      fun us hus => ⟨[.symbol ';'], by decide, isClause_binding name hus⟩
  · obtain ⟨hsettled, -⟩ := steps_of_half hhalf
    rw [hsettled]
    refine at_expression_of_half viable_zero ?_ hhalf
    rw [eq_advance_of_literal hf]
    exact viable_of_half '=' hbound hg (.inl rfl) rfl
      ⟨[.name "a", .symbol ';'], by decide, isClause_binding name hvalue⟩

theorem viable_returnStatement (ih : ViabilityBelow n) (hs : c.skip = c) (hc : c.size ≤ n) :
    Viable c IsClause c.returnStatement.furthest := by
  have hstart := viable_of_passes (.refl c) completable_clause
  rw [returnStatement]
  refine at_named hstart (at_andThen (at_keyword viable_zero hstart _ _) fun ps d hd => ?_)
  obtain ⟨-, hword⟩ := (keyword_eq_some hs).mp hd
  refine at_andThen ?_ fun qs e _ => at_semicolon viable_zero
  have h₁ := hword.size_lt
  have h₂ := d.size_skip_le
  exact (ih d.skip (skip_skip d) (by omega)).expression.extend (.step hword (.layout (.refl _)))
    fun us hus => ⟨[.symbol ';'], by decide, isClause_returning hus⟩

theorem viable_expressionStatement (ih : ViabilityBelow n) (hs : c.skip = c) (hc : c.size ≤ n) :
    Viable c IsClause c.expressionStatement.furthest := by
  rw [expressionStatement]
  refine at_named (viable_of_passes (.refl c) completable_clause)
    (at_andThen ?_ fun ps d _ => at_semicolon viable_zero)
  exact (viable_expression ih hs hc).imp fun us hus =>
    ⟨[.symbol ';'], by decide, isClause_expression hus⟩

theorem viable_statement (ih : ViabilityBelow n) (hs : c.skip = c) (hc : c.size ≤ n) :
    Viable c IsClause c.statement.furthest := by
  rw [statement]
  exact at_orElse (viable_letStatement ih hs hc) fun _ =>
    at_orElse (viable_returnStatement ih hs hc) fun _ => viable_expressionStatement ih hs hc

theorem viability (c : Cursor) (hs : c.skip = c) : Viability c := by
  have ih : ViabilityBelow c.size := fun d hd _ => viability d hd
  constructor
  · exact viable_expression ih hs (Nat.le_refl _)
  · exact fun l => viable_tighterOperand l ih hs (Nat.le_refl _)
  · exact viable_statement ih hs (Nat.le_refl _)
termination_by c.size

theorem viable_of_statements (c : Cursor) : Viable c IsClauses c.statements.furthest :=
  viable_statements (fun d hd _ => viability d hd) c.size_lt_succ

end Cursor
end MonkeyLang
