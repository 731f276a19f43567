import MonkeyLang.Grammar.Phrase
import MonkeyLang.Grammar.Reader
import MonkeyLang.Proofs.Lexing.Passes

/-!
Words, numbers, operators and marks of punctuation. Behind layout, the grammar finds one of these
exactly where the longest token is that one. The only readings that stop inside a token are those
of `=` and `!`, which may be the first half of `==` and `!=`.
-/
namespace MonkeyLang

theorem Keyword.eq_of_text_begins {k k' : Keyword} (h : k.text.toList <+: k'.text.toList) :
    k = k' := by
  revert h
  cases k <;> cases k' <;> decide

/-- The text of the token is that token whatever comes after it. -/
def Token.IsRigid (t : Token) : Prop :=
  ∀ cs, ∃ ch rest, t.text.toList ++ cs = ch :: rest ∧ (next ch rest).1 = t

/-- Whether a character is a token of its own whatever comes after it. -/
def isMark (c : Char) : Bool := !isWordStart c && !c.isDigit && c != '=' && c != '!'

theorem Token.isRigid_mark {ch : Char} (h : isMark ch = true) : (symbol ch).IsRigid := by
  intro cs
  refine ⟨ch, cs, by simp [text], ?_⟩
  simp only [isMark, Bool.and_eq_true, Bool.not_eq_true', bne_iff_ne] at h
  obtain ⟨⟨⟨hstart, hdigit⟩, hequal⟩, hbang⟩ := h
  simp [next, hstart, hdigit, hequal, hbang]

theorem BinaryOp.text_token (op : BinaryOp) : op.token.text = op.text := by cases op <;> rfl

theorem BinaryOp.isRigid_token (op : BinaryOp) : op.token.IsRigid := by
  cases op with
  | add | sub | mul | div | lt | gt => exact Token.isRigid_mark (by decide)
  | eq | neq => exact fun cs => ⟨_, _, rfl, by rfl⟩

theorem BinaryOp.eq_of_text_begins {op op' : BinaryOp} (h : op.text.toList <+: op'.text.toList) :
    op.text = op'.text := by
  revert h
  cases op <;> cases op' <;> decide

theorem UnaryOp.text_token (op : UnaryOp) : op.token.text = op.text := by cases op <;> rfl

namespace Cursor

theorem upTo_advance (c : Cursor) (n : Nat) : c.upTo (c.advance n) = c.rest.take n := by
  simp [upTo, advance]

theorem outcome_literal (text : String) (c : Cursor) :
    (c.literal text).outcome =
      if 0 < text.toList.length ∧ text.toList <+: c.rest then
        some ([], c.advance text.toList.length)
      else none := by
  unfold literal
  split <;> simp_all [Reading.outcome_passed, Reading.outcome_failure]

theorem eq_advance_of_literal {c d : Cursor} {text : String} {ps : List Piece}
    (h : (c.literal text).outcome = some (ps, d)) : d = c.advance text.toList.length := by
  rw [outcome_literal] at h
  split at h <;> cases h
  rfl

theorem outcome_literal_pieces {c d : Cursor} {text : String} {ps : List Piece}
    (h : (c.literal text).outcome = some (ps, d)) : ps = [] := by
  rw [outcome_literal] at h
  split at h <;> cases h
  rfl

theorem outcome_oneOf (c : Cursor) (texts : List String) :
    (c.oneOf texts).outcome = texts.findSome? fun text => (c.literal text).outcome := by
  induction texts with
  | nil => rfl
  | cons text texts ih =>
      rw [oneOf, Reading.outcome_orElse, ih, List.findSome?_cons]
      cases (c.literal text).outcome <;> rfl

theorem outcome_run_eq_some {first more : Char → Bool} {c d : Cursor} {ps : List Piece} :
    (c.run first more).outcome = some (ps, d) ↔
      ps = [] ∧ ∃ ch cs, c.rest = ch :: cs ∧ first ch = true ∧
        d = c.advance (1 + (cs.takeWhile more).length) := by
  unfold run
  split
  · simp_all [Reading.outcome_failure]
  · next ch cs h =>
      split
      · next hch =>
          constructor
          · rintro ⟨⟩
            exact ⟨rfl, ch, cs, h, hch, rfl⟩
          · rintro ⟨rfl, ch', cs', heq, -, rfl⟩
            cases h.symm.trans heq
            rfl
      · next hch =>
          constructor
          · rintro ⟨⟩
          · rintro ⟨rfl, ch', cs', heq, hch', rfl⟩
            cases h.symm.trans heq
            exact absurd hch' hch

theorem steps_of_next {c : Cursor} {ch : Char} {cs : List Char} {t : Token} (hs : c.skip = c)
    (hc : c.rest = ch :: cs) (ht : (Token.next ch cs).1 = t) :
    Steps c t (c.advance t.text.toList.length) :=
  ht ▸ .mk hs hc

theorem Steps.rest_eq {c d : Cursor} {t : Token} (h : Steps c t d) :
    c.rest = t.text.toList ++ d.rest := by
  obtain ⟨hs, hc⟩ := h
  rw [rest_advance_next hc, hc, Token.text_next_append]

theorem Steps.token_unique {c d e : Cursor} {t u : Token} (h : Steps c t d) (h' : Steps c u e) :
    t = u := by
  have heq := h.tokens_eq.symm.trans h'.tokens_eq
  exact (List.cons.inj heq).1

theorem Steps.eq_advance {c d : Cursor} {t : Token} (h : Steps c t d) :
    d = c.advance t.text.toList.length := by
  obtain ⟨hs, hc⟩ := h
  rfl

theorem Steps.upTo_eq {c d : Cursor} {t : Token} (h : Steps c t d) :
    c.upTo d = t.text.toList := by
  rw [h.eq_advance, upTo_advance, h.rest_eq, List.take_left]

theorem Steps.literal {c d : Cursor} {t : Token} (h : Steps c t d) :
    (c.literal t.text).outcome = some ([], d) := by
  have hpos : 0 < t.text.toList.length := by
    obtain @⟨ch, cs, hs, hc⟩ := h
    obtain ⟨w, hw⟩ := Token.exists_text_next ch cs
    simp [hw]
  rw [outcome_literal, if_pos ⟨hpos, h.rest_eq ▸ List.prefix_append _ _⟩, h.eq_advance]

/-- A rule that is read by passing one token of a kind. -/
theorem named_eq_some {ι : Type} (kind : ι → Token) {c d : Cursor} {n : Nat} {rule : Rule}
    {r : Reading n} {ps : List Piece}
    (hr : ∀ qs e, r.outcome = some (qs, e) ↔ qs = [] ∧ ∃ i, Steps c (kind i) e) :
    (r.named rule c).outcome = some (ps, d) ↔
      ∃ i, ps = [.mk rule (kind i).text.toList []] ∧ Steps c (kind i) d := by
  rw [Reading.outcome_named]
  constructor
  · intro h
    obtain ⟨⟨qs, e⟩, hq, heq⟩ := Option.map_eq_some_iff.mp h
    obtain ⟨rfl, i, hstep⟩ := (hr qs e).mp hq
    cases heq
    exact ⟨i, by rw [hstep.upTo_eq], hstep⟩
  · rintro ⟨i, rfl, hstep⟩
    rw [(hr [] d).mpr ⟨rfl, i, hstep⟩, Option.map_some, hstep.upTo_eq]

theorem Steps.keyword_of_literal {c : Cursor} {k : Keyword} (hs : c.skip = c)
    (hbegins : k.text.toList <+: c.rest)
    (hstop : (c.advance k.text.toList.length).rest.head?.any isWordPart = false) :
    Steps c (.keyword k) (c.advance k.text.toList.length) := by
  obtain ⟨r, hr⟩ := hbegins
  have hrest : (c.advance k.text.toList.length).rest = r := by
    rw [advance, ← hr, List.drop_left]
  obtain ⟨ch, w, hw, hstart⟩ : ∃ ch w, k.text.toList = ch :: w ∧ isWordStart ch = true := by
    cases k <;> exact ⟨_, _, rfl, by decide⟩
  rw [hw, List.cons_append] at hr
  apply steps_of_next hs hr.symm
  rw [Token.next_word (w := k.text.toList) (r := r) (by rw [hw, List.cons_append]) hstart
    k.isWordPart_text (hrest ▸ hstop), String.ofList_toList, Token.ofWord_text]

theorem Steps.stop_of_isWord {c d : Cursor} {t : Token} (h : Steps c t d)
    (ht : t.isWord = true) : d.rest.head?.any isWordPart = false := by
  obtain @⟨ch, cs, hs, hc⟩ := h
  rw [rest_advance_next hc]
  rw [Token.isWord_next] at ht
  simp only [Token.next, ht, ite_true, head?_dropWhile_any]

/-- Of some texts none of which begins another, a token is found among them if it is one. -/
theorem Steps.oneOf {c d : Cursor} {t : Token} {texts : List String} (h : Steps c t d)
    (ht : t.text ∈ texts)
    (hfree : ∀ text ∈ texts, text.toList <+: t.text.toList ∨ t.text.toList <+: text.toList →
      text = t.text) : (c.oneOf texts).outcome = some ([], d) := by
  rw [outcome_oneOf]
  induction texts with
  | nil => cases ht
  | cons text texts ih =>
      by_cases he : text = t.text
      · rw [List.findSome?_cons, he, h.literal]
      · have hnone : (c.literal text).outcome = none := by
          rw [outcome_literal, if_neg]
          rintro ⟨-, hbegins⟩
          have hbegins' : t.text.toList <+: c.rest := h.rest_eq ▸ List.prefix_append _ _
          exact he (hfree text List.mem_cons_self
            (List.prefix_or_prefix_of_prefix hbegins hbegins'))
        rw [List.findSome?_cons, hnone]
        refine ih ?_ fun text' htext' => hfree text' (List.mem_cons_of_mem _ htext')
        exact (List.mem_cons.mp ht).resolve_left (Ne.symm he)

theorem outcome_words {c : Cursor} (hs : c.skip = c) (ks : List Keyword) (ps : List Piece)
    (d : Cursor) :
    ((c.oneOf (ks.map Keyword.text)).unlessBefore isWordPart).outcome = some (ps, d) ↔
      ps = [] ∧ ∃ k ∈ ks, Steps c (.keyword k) d := by
  rw [Reading.outcome_unlessBefore, Option.filter_eq_some_iff, outcome_oneOf]
  constructor
  · rintro ⟨h, hstop⟩
    obtain ⟨text, htext, hlit⟩ := List.exists_of_findSome?_eq_some h
    obtain ⟨k, hk, rfl⟩ := List.mem_map.mp htext
    rw [outcome_literal] at hlit
    split at hlit
    · next hbegins =>
        cases hlit
        exact ⟨rfl, k, hk, .keyword_of_literal hs hbegins.2 (by simpa using hstop)⟩
    · cases hlit
  · rintro ⟨rfl, k, hk, hstep⟩
    have hstop := hstep.stop_of_isWord rfl
    refine ⟨?_, by simp [hstop]⟩
    rw [← outcome_oneOf]
    refine hstep.oneOf (List.mem_map_of_mem hk) ?_
    intro text htext hbegins
    obtain ⟨k', -, rfl⟩ := List.mem_map.mp htext
    rcases hbegins with hbegins | hbegins
    · rw [Keyword.eq_of_text_begins hbegins, Token.text]
    · rw [← Keyword.eq_of_text_begins hbegins, Token.text]

theorem keyword_eq_some {c d : Cursor} {rule : Rule} {k : Keyword} {ps : List Piece}
    (hs : c.skip = c) :
    (c.keyword rule k).outcome = some (ps, d) ↔
      ps = [.mk rule k.text.toList []] ∧ Steps c (.keyword k) d := by
  have hone : (c.oneOf [k.text]).outcome = (c.literal k.text).outcome := by
    rw [outcome_oneOf, List.findSome?_singleton]
  rw [keyword, named_eq_some fun _ : Unit => .keyword k]
  · simp [Token.text]
  · intro qs e
    rw [Reading.outcome_unlessBefore, ← hone, ← Reading.outcome_unlessBefore,
      show [k.text] = [k].map Keyword.text from rfl, outcome_words hs]
    simp

theorem boolean_eq_some {c d : Cursor} {ps : List Piece} (hs : c.skip = c) :
    c.boolean.outcome = some (ps, d) ↔
      ∃ b, ps = [.mk .boolean (Keyword.ofBool b).text.toList []] ∧
        Steps c (.keyword (.ofBool b)) d := by
  rw [boolean, named_eq_some fun b => .keyword (.ofBool b)]
  · simp [Token.text]
  · intro qs e
    rw [show ["true", "false"] = [Keyword.trueWord, .falseWord].map Keyword.text from rfl,
      outcome_words hs]
    simp [Keyword.ofBool, or_comm]

theorem atKeyword_iff {c : Cursor} (hs : c.skip = c) :
    c.atKeyword = true ↔ ∃ k d, Steps c (.keyword k) d := by
  rw [atKeyword, Option.isSome_iff_exists]
  constructor
  · rintro ⟨⟨ps, d⟩, h⟩
    obtain ⟨-, k, -, hstep⟩ := (outcome_words hs _ ps d).mp h
    exact ⟨k, d, hstep⟩
  · rintro ⟨k, d, hstep⟩
    exact ⟨([], d), (outcome_words hs _ [] d).mpr ⟨rfl, k, k.mem_all, hstep⟩⟩

theorem outcome_run_word {c d : Cursor} {ps : List Piece} (hs : c.skip = c) :
    (c.run isWordStart isWordPart).outcome = some (ps, d) ↔
      ps = [] ∧ ∃ t, t.isWord = true ∧ Steps c t d := by
  rw [outcome_run_eq_some]
  refine and_congr_right fun _ => ?_
  constructor
  · rintro ⟨ch, cs, hc, hch, rfl⟩
    have hlen : (Token.next ch cs).1.text.toList.length =
        1 + (cs.takeWhile isWordPart).length := by
      simp [Token.next, hch, Token.text_ofWord, Nat.add_comm]
    rw [← hlen]
    exact ⟨_, by rw [Token.isWord_next, hch], .mk hs hc⟩
  · rintro ⟨t, ht, hstep⟩
    obtain @⟨ch, cs, -, hc⟩ := hstep
    rw [Token.isWord_next] at ht
    exact ⟨ch, cs, hc, ht, by simp [Token.next, ht, Token.text_ofWord, Nat.add_comm]⟩

theorem identifier_eq_some {c d : Cursor} {ps : List Piece} (hs : c.skip = c) :
    c.identifier.outcome = some (ps, d) ↔
      ∃ name, ps = [.mk .identifier name.toList []] ∧ Steps c (.name name) d := by
  rw [identifier, named_eq_some Token.name]
  · simp only [Token.text]
  · intro qs e
    by_cases hk : c.atKeyword = true
    · obtain ⟨k, d', hstep'⟩ := (atKeyword_iff hs).mp hk
      simp only [hk, ite_true, Reading.outcome_failure, reduceCtorEq, false_iff, not_and,
        not_exists]
      intro _ name hstep
      cases hstep.token_unique hstep'
    · simp only [hk, ite_false, Bool.false_eq_true, outcome_run_word hs]
      refine and_congr_right fun _ => ⟨?_, ?_⟩
      · rintro ⟨t, ht, hstep⟩
        cases t with
        | name name => exact ⟨name, hstep⟩
        | keyword k => exact absurd ((atKeyword_iff hs).mpr ⟨k, e, hstep⟩) hk
        | numeral _ | equal | notEqual | symbol _ => cases ht
      · rintro ⟨name, hstep⟩
        exact ⟨.name name, rfl, hstep⟩

theorem integer_eq_some {c d : Cursor} {ps : List Piece} (hs : c.skip = c) :
    c.integer.outcome = some (ps, d) ↔
      ∃ digits, ps = [.mk .integer digits.toList []] ∧ Steps c (.numeral digits) d := by
  rw [integer, named_eq_some Token.numeral]
  · simp only [Token.text]
  · intro qs e
    rw [outcome_run_eq_some]
    refine and_congr_right fun _ => ?_
    constructor
    · rintro ⟨ch, cs, hc, hch, rfl⟩
      have hnext := Token.next_digit cs hch
      have hstep := steps_of_next hs hc (congrArg Prod.fst hnext)
      rw [Token.text, String.toList_ofList, List.length_cons, Nat.add_comm] at hstep
      exact ⟨_, hstep⟩
    · rintro ⟨digits, hstep⟩
      have hadvance := hstep.eq_advance
      generalize ht : Token.numeral digits = t at hstep
      obtain @⟨ch, cs, -, hc⟩ := hstep
      have hdigit := Token.isDigit_of_next ht.symm
      rw [Token.next_digit cs hdigit, Token.numeral.injEq] at ht
      refine ⟨ch, cs, hc, hdigit, ?_⟩
      rw [hadvance, ht, Token.text, String.toList_ofList, List.length_cons, Nat.add_comm]

theorem literal_eq_some {c d : Cursor} {t : Token} {ps : List Piece} (hs : c.skip = c)
    (ht : t.IsRigid) :
    (c.literal t.text).outcome = some (ps, d) ↔ ps = [] ∧ Steps c t d := by
  constructor
  · intro h
    rw [outcome_literal] at h
    split at h
    · next hbegins =>
        cases h
        obtain ⟨cs, hcs⟩ := hbegins.2
        obtain ⟨ch, rest, hrest, hnext⟩ := ht cs
        exact ⟨rfl, steps_of_next hs (hcs.symm.trans hrest) hnext⟩
    · cases h
  · rintro ⟨rfl, hstep⟩
    exact hstep.literal

theorem mark_eq_some {c d : Cursor} {ps : List Piece} (text : String) (ch : Char)
    (hs : c.skip = c) (htext : text = String.singleton ch := by rfl)
    (hmark : isMark ch = true := by decide) :
    (c.literal text).outcome = some (ps, d) ↔ ps = [] ∧ Steps c (.symbol ch) d := by
  rw [htext]
  exact literal_eq_some (t := .symbol ch) hs (Token.isRigid_mark hmark)

/-- A character may be the first half of a token. -/
theorem steps_or_half {c d : Cursor} {ps : List Piece} {t : Token} (ch : Char) (hs : c.skip = c)
    (hstart : isWordStart ch = false) (hdigit : ch.isDigit = false)
    (ht : ∀ cs, (Token.next ch ('=' :: cs)).1 = t)
    (h : (c.literal (String.singleton ch)).outcome = some (ps, d)) :
    Steps c (.symbol ch) d ∨ (∃ e, Steps c t e) ∧ d.rest.head? = some '=' := by
  rw [outcome_literal] at h
  split at h
  · next hbegins =>
      cases h
      obtain ⟨cs, hcs⟩ := hbegins.2
      have hc : c.rest = ch :: cs := by simpa using hcs.symm
      have hd : (c.advance (String.singleton ch).toList.length).rest = cs := by
        simp [advance, hc]
      rw [hd]
      by_cases hhalf : cs.head? = some '='
      · obtain ⟨cs', rfl⟩ := List.head?_eq_some_iff.mp hhalf
        exact .inr ⟨⟨_, steps_of_next hs hc (ht cs')⟩, hhalf⟩
      · exact .inl (steps_of_next hs hc (congrArg Prod.fst (Token.next_symbol hstart hdigit hhalf)))
  · cases h

/-- The other half of a token that has been read to its middle. -/
theorem steps_of_half {c : Cursor} (h : c.rest.head? = some '=') :
    c.skip = c ∧ ∃ t d, Steps c t d ∧ (t = .equal ∨ t = .symbol '=') := by
  obtain ⟨cs, hcs⟩ := List.head?_eq_some_iff.mp h
  have hsettled : c.skip = c := by
    apply skip_eq_of_layout_nil
    rw [hcs]
    rfl
  refine ⟨hsettled, _, _, steps_of_next hsettled hcs rfl, ?_⟩
  by_cases hhalf : cs.head? = some '='
  · obtain ⟨cs', rfl⟩ := List.head?_eq_some_iff.mp hhalf
    exact .inl rfl
  · exact .inr (congrArg Prod.fst (Token.next_symbol (by decide) (by decide) hhalf))

theorem steps_of_assign {c d : Cursor} {ps : List Piece} (hs : c.skip = c)
    (h : (c.literal "=").outcome = some (ps, d)) :
    Steps c (.symbol '=') d ∨ (∃ e, Steps c .equal e) ∧ d.rest.head? = some '=' :=
  steps_or_half '=' hs (by decide) (by decide) (fun _ => by rfl) h

theorem operator_eq_some {c d : Cursor} {l : Level} {ps : List Piece} (hs : c.skip = c) :
    (c.operator l).outcome = some (ps, d) ↔
      ∃ op : BinaryOp, op.level = l ∧ ps = [.mk l.operatorRule op.text.toList []] ∧
        Steps c op.token d := by
  have hmem (op : BinaryOp) : op ∈ l.operators ↔ op.level = l := by
    cases op <;> cases l <;> decide
  rw [operator, named_eq_some fun op : {op : BinaryOp // op.level = l} => op.1.token]
  · simp only [BinaryOp.text_token, Subtype.exists, exists_prop]
  · intro qs e
    rw [outcome_oneOf]
    constructor
    · intro h
      obtain ⟨text, htext, hlit⟩ := List.exists_of_findSome?_eq_some h
      obtain ⟨op, hop, rfl⟩ := List.mem_map.mp htext
      rw [← BinaryOp.text_token, literal_eq_some hs op.isRigid_token] at hlit
      exact ⟨hlit.1, ⟨op, (hmem op).mp hop⟩, hlit.2⟩
    · rintro ⟨rfl, ⟨op, hop⟩, hstep⟩
      rw [← outcome_oneOf]
      refine hstep.oneOf ?_ ?_
      · rw [BinaryOp.text_token]
        exact List.mem_map_of_mem ((hmem op).mpr hop)
      · intro text htext hbegins
        obtain ⟨op', -, rfl⟩ := List.mem_map.mp htext
        rw [BinaryOp.text_token] at hbegins ⊢
        exact hbegins.elim BinaryOp.eq_of_text_begins fun h => (BinaryOp.eq_of_text_begins h).symm

theorem steps_of_sign {c d : Cursor} {ps : List Piece} (hs : c.skip = c)
    (h : c.sign.outcome = some (ps, d)) :
    (∃ op : UnaryOp, Steps c op.token d) ∨
      (∃ e, Steps c .notEqual e) ∧ d.rest.head? = some '=' := by
  rw [sign, Reading.outcome_named] at h
  obtain ⟨⟨qs, e⟩, hq, heq⟩ := Option.map_eq_some_iff.mp h
  cases heq
  rw [outcome_oneOf] at hq
  obtain ⟨text, htext, hlit⟩ := List.exists_of_findSome?_eq_some hq
  obtain ⟨op, -, rfl⟩ := List.mem_map.mp htext
  cases op with
  | not =>
      have h := steps_or_half '!' hs (by decide) (by decide) (fun _ => by rfl) hlit
      exact h.imp_left fun hstep => ⟨.not, hstep⟩
  | neg => exact .inl ⟨.neg, ((mark_eq_some "-" '-' hs).mp hlit).2⟩

theorem eq_advance_of_sign {c d : Cursor} {ps : List Piece} (h : c.sign.outcome = some (ps, d)) :
    d = c.advance 1 := by
  rw [sign, Reading.outcome_named_eq_some] at h
  obtain ⟨qs, hq, -⟩ := h
  rw [outcome_oneOf] at hq
  obtain ⟨text, htext, hlit⟩ := List.exists_of_findSome?_eq_some hq
  obtain ⟨op, -, rfl⟩ := List.mem_map.mp htext
  cases op <;> exact eq_advance_of_literal hlit

theorem Steps.sign {c d : Cursor} {op : UnaryOp} (h : Steps c op.token d) :
    c.sign.outcome = some ([.mk .unaryOperator op.text.toList []], d) := by
  rw [Cursor.sign, Reading.outcome_named, h.oneOf, Option.map_some, h.upTo_eq,
    UnaryOp.text_token]
  · cases op <;> decide
  · cases op <;> decide

end Cursor
end MonkeyLang
