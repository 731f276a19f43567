import MonkeyLang.Grammar.Cursor
import MonkeyLang.Proofs.Lexing.Tokens

/-!
Cursors that pass tokens. What is passed on the way from one cursor to another is a text of its
own: cut out, it has the tokens that were passed, whatever followed it.
-/
namespace MonkeyLang
namespace Cursor

/-- The tokens that are left. -/
def tokens (c : Cursor) : List Token := tokensOf c.rest

/-- From a cursor behind layout, the longest token is passed. -/
inductive Steps : Cursor → Token → Cursor → Prop
  | mk {c : Cursor} {ch : Char} {cs : List Char} (settled : c.skip = c) (head : c.rest = ch :: cs) :
      Steps c (Token.next ch cs).1 (c.advance (Token.next ch cs).1.text.toList.length)

/-- Some tokens are passed, and perhaps layout before, between and after them. -/
inductive Passes : Cursor → List Token → Cursor → Prop
  | refl (c : Cursor) : Passes c [] c
  | layout {c d : Cursor} {ts : List Token} : Passes c.skip ts d → Passes c ts d
  | step {c d e : Cursor} {t : Token} {ts : List Token} :
      Steps c t e → Passes e ts d → Passes c (t :: ts) d

theorem skip_eq_of_layout_nil {c : Cursor} (h : (splitLayout c.rest).1 = []) : c.skip = c := by
  simp [skip, h, advance]

theorem skip_skip (c : Cursor) : c.skip.skip = c.skip := by
  apply skip_eq_of_layout_nil
  rw [rest_skip, splitLayout_rest]

theorem splitLayout_of_settled {c : Cursor} (h : c.skip = c) :
    splitLayout c.rest = ([], c.rest) := by
  have hrest := splitLayout_rest c.rest
  rwa [← rest_skip, h] at hrest

theorem tokens_skip (c : Cursor) : c.skip.tokens = c.tokens := by
  rw [tokens, rest_skip, tokensOf_splitLayout, tokens]

theorem tokens_eq_cons {c : Cursor} {ch : Char} {cs : List Char} (h : c.skip = c)
    (hc : c.rest = ch :: cs) :
    c.tokens = (Token.next ch cs).1 :: tokensOf (Token.next ch cs).2 := by
  apply tokensOf_eq_cons
  rw [splitLayout_of_settled h, hc]

theorem rest_advance_next {c : Cursor} {ch : Char} {cs : List Char} (hc : c.rest = ch :: cs) :
    (c.advance (Token.next ch cs).1.text.toList.length).rest = (Token.next ch cs).2 := by
  have h := congrArg (List.drop (Token.next ch cs).1.text.toList.length)
    (Token.text_next_append ch cs)
  simpa only [advance, hc, List.drop_left] using h.symm

theorem Steps.tokens_eq {c d : Cursor} {t : Token} (h : Steps c t d) :
    c.tokens = t :: d.tokens := by
  obtain ⟨hs, hc⟩ := h
  rw [tokens_eq_cons hs hc, tokens, rest_advance_next hc]

theorem exists_steps {c : Cursor} {t : Token} {ts : List Token} (h : c.skip = c)
    (ht : c.tokens = t :: ts) : ∃ d, Steps c t d ∧ d.skip.tokens = ts := by
  cases hc : c.rest with
  | nil =>
      rw [tokens, hc, tokensOf_nil] at ht
      cases ht
  | cons ch cs =>
      have hd := rest_advance_next hc
      rw [tokens_eq_cons h hc] at ht
      cases ht
      exact ⟨_, .mk h hc, by rw [tokens_skip, tokens, hd]⟩

theorem rest_eq_nil_of_tokens {c : Cursor} (h : c.skip = c) (ht : c.tokens = []) :
    c.rest = [] := by
  cases hc : c.rest with
  | nil => rfl
  | cons ch cs =>
      rw [tokens_eq_cons h hc] at ht
      cases ht

theorem Steps.passes {c d : Cursor} {t : Token} (h : Steps c t d) : Passes c [t] d :=
  .step h (.refl d)

theorem Steps.size_lt {c d : Cursor} {t : Token} (h : Steps c t d) : d.size < c.size := by
  obtain ⟨hs, hc⟩ := h
  have hle := Token.length_next_le ‹Char› ‹List Char›
  rw [size, size, rest_advance_next hc, hc, List.length_cons]
  omega

theorem Passes.trans {c d e : Cursor} {ts us : List Token} (h : Passes c ts d)
    (h' : Passes d us e) : Passes c (ts ++ us) e := by
  induction h with
  | refl c => exact h'
  | layout _ ih => exact .layout (ih h')
  | step hs _ ih => exact .step hs (ih h')

theorem Passes.skip {c d : Cursor} {ts : List Token} (h : Passes c ts d) : Passes c ts d.skip := by
  simpa using h.trans (.layout (.refl d.skip))

theorem Passes.tokens_eq {c d : Cursor} {ts : List Token} (h : Passes c ts d) :
    c.tokens = ts ++ d.tokens := by
  induction h with
  | refl c => rfl
  | layout _ ih => rw [← tokens_skip, ih]
  | step hs _ ih => rw [hs.tokens_eq, ih, List.cons_append]

theorem Passes.rest_tokens {c d : Cursor} {ts us : List Token} (h : Passes c ts d)
    (hc : c.tokens = ts ++ us) : d.skip.tokens = us := by
  rw [h.tokens_eq] at hc
  rw [tokens_skip]
  exact List.append_cancel_left hc

theorem Passes.exists_next {c d : Cursor} {t : Token} {ts us : List Token} (h : Passes c ts d)
    (hc : c.tokens = ts ++ t :: us) : ∃ e, Steps d.skip t e ∧ e.skip.tokens = us :=
  exists_steps (skip_skip d) (h.rest_tokens hc)

end Cursor

theorem splitLayout_eq_self_iff (cs : List Char) :
    splitLayout cs = ([], cs) ↔ cs.head?.any isBlank = false ∧ ¬ ['/', '/'] <+: cs := by
  unfold splitLayout
  rcases cs with _ | ⟨c, _ | ⟨d, cs⟩⟩
  · simp [splitLayoutFrom]
  · by_cases hc : isBlank c <;> simp [splitLayoutFrom, hc]
  · by_cases hs : c = '/' ∧ d = '/'
    · obtain ⟨rfl, rfl⟩ := hs
      simp [splitLayoutFrom]
    · have hslash (cs' : List Char) (hc : c = '/') (hd : d :: cs = '/' :: cs') : False :=
        hs ⟨hc, (List.cons.inj hd).1⟩
      rw [splitLayoutFrom.eq_4 c (d :: cs) hslash]
      have hbegins : ¬ ['/', '/'] <+: c :: d :: cs := by
        rintro ⟨r, hr⟩
        cases hr
        exact hs ⟨rfl, rfl⟩
      by_cases hc : isBlank c <;> simp [hc, hbegins]

theorem splitLayout_of_append {a b : List Char} (h : splitLayout (a ++ b) = ([], a ++ b)) :
    splitLayout a = ([], a) := by
  rw [splitLayout_eq_self_iff] at *
  refine ⟨?_, fun hp => h.2 (hp.trans (List.prefix_append a b))⟩
  cases a with
  | nil => rfl
  | cons x a => exact h.1

theorem splitLayoutFrom_of_append (inComment : Bool) (cs : List Char) {lay a b : List Char}
    (h : splitLayoutFrom inComment cs = (lay, a ++ b)) :
    splitLayoutFrom inComment (lay ++ a) = (lay, a) := by
  fun_induction splitLayoutFrom generalizing lay with
  | case1 m =>
      simp only [Prod.mk.injEq, List.nil_eq, List.append_eq_nil_iff] at h
      obtain ⟨rfl, rfl, rfl⟩ := h
      rfl
  | case2 c cs layout rest hrec ih =>
      cases h
      simp only [List.cons_append, splitLayoutFrom, ih hrec]
  | case3 cs layout rest hrec ih =>
      cases h
      simp only [List.cons_append, splitLayoutFrom, ih hrec]
  | case4 c cs hslash hc layout rest hrec ih =>
      cases h
      have hne : c ≠ '/' := by
        rintro rfl
        exact absurd hc (by decide)
      simp only [List.cons_append]
      rw [splitLayoutFrom]
      · simp only [hc, ite_true, ih hrec]
      · intro cs' hcs
        exact absurd hcs hne
  | case5 c cs hslash hc =>
      simp only [Prod.mk.injEq] at h
      obtain ⟨rfl, h⟩ := h
      apply splitLayout_of_append (b := b)
      rw [List.nil_append, ← h]
      unfold splitLayout
      rw [splitLayoutFrom]
      · simp only [hc, Bool.false_eq_true, ite_false]
      · exact hslash

theorem splitLayout_rest_of_append {cs a b : List Char} (h : (splitLayout cs).2 = a ++ b) :
    (splitLayout ((splitLayout cs).1 ++ a)).2 = a := by
  have hsplit : splitLayoutFrom false cs = ((splitLayout cs).1, a ++ b) := by rw [← h]; rfl
  exact congrArg Prod.snd (splitLayoutFrom_of_append false cs hsplit)

theorem Token.exists_text_next (ch : Char) (cs : List Char) :
    ∃ w, (next ch cs).1.text.toList = ch :: w := by
  unfold next
  split
  · exact ⟨cs.takeWhile isWordPart, by simp [text_ofWord]⟩
  split
  · exact ⟨cs.takeWhile Char.isDigit, by simp [text]⟩
  split
  · exact ⟨['='], by simp [text]⟩
  · exact ⟨['='], by simp [text]⟩
  · exact ⟨[], by simp [text]⟩

/-- A token stays the longest one if the text ends earlier, behind the token. -/
theorem Token.next_of_append {ch : Char} {cs w a b : List Char} (hr : (next ch cs).2 = a ++ b)
    (hw : (next ch cs).1.text.toList = ch :: w) :
    next ch (w ++ a) = ((next ch cs).1, a) := by
  have hstop (p : Char → Bool) (h : cs.dropWhile p = a ++ b) : a.head?.any p = false := by
    have hd := head?_dropWhile_any p cs
    rw [h] at hd
    cases a <;> simp_all
  unfold next at *
  by_cases hstart : isWordStart ch
  · simp only [hstart, ite_true] at *
    have hw' : cs.takeWhile isWordPart = w := by simpa [text_ofWord] using hw
    obtain ⟨ht, hd⟩ := takeWhile_append_of_stop (w := w) (r := a) (p := isWordPart)
      (by rw [← hw']; exact List.all_eq_true.mp List.all_takeWhile) (hstop _ hr)
    rw [ht, hd, hw']
  by_cases hdigit : ch.isDigit
  · simp only [hstart, hdigit, Bool.false_eq_true, ite_false, ite_true] at *
    have hw' : cs.takeWhile Char.isDigit = w := by simpa [text] using hw
    obtain ⟨ht, hd⟩ := takeWhile_append_of_stop (w := w) (r := a) (p := Char.isDigit)
      (by rw [← hw']; exact List.all_eq_true.mp List.all_takeWhile) (hstop _ hr)
    rw [ht, hd, hw']
  · simp only [hstart, hdigit, Bool.false_eq_true, ite_false] at *
    revert hr hw
    split
    · intro hr hw
      have hw' : ['='] = w := by simpa [text] using hw
      simp [← hw']
    · intro hr hw
      have hw' : ['='] = w := by simpa [text] using hw
      simp [← hw']
    · next heq hne =>
        intro hr hw
        have hw' : [] = w := by simpa [text] using hw
        rw [← hw', List.nil_append]
        simp only at hr
        split <;> simp_all

theorem tokensOf_layout_append {cs a b : List Char} (h : (splitLayout cs).2 = a ++ b) :
    tokensOf ((splitLayout cs).1 ++ a) = tokensOf a := by
  rw [← tokensOf_splitLayout, splitLayout_rest_of_append h]

theorem tokensOf_text_append {ch : Char} {cs a b : List Char}
    (hs : splitLayout (ch :: cs) = ([], ch :: cs)) (hr : (Token.next ch cs).2 = a ++ b) :
    tokensOf ((Token.next ch cs).1.text.toList ++ a) = (Token.next ch cs).1 :: tokensOf a := by
  have happend := Token.text_next_append ch cs
  rw [hr, ← List.append_assoc] at happend
  obtain ⟨w, hw⟩ := Token.exists_text_next ch cs
  rw [hw] at happend ⊢
  have hsettled : splitLayout (ch :: w ++ a) = ([], ch :: w ++ a) :=
    splitLayout_of_append (b := b) (by rwa [happend])
  rw [List.cons_append] at hsettled ⊢
  have htokens := tokensOf_eq_cons (congrArg Prod.snd hsettled)
  rwa [Token.next_of_append hr hw] at htokens

namespace Cursor

/-- What is passed on the way, cut out with some of what follows it. -/
theorem Passes.exists_taken_append {c d : Cursor} {ts : List Token} {a b : List Char}
    (h : Passes c ts d) (hd : d.rest = a ++ b) :
    ∃ taken, c.rest = taken ++ d.rest ∧ d.offset = c.offset + taken.length ∧
      tokensOf (taken ++ a) = ts ++ tokensOf a := by
  induction h with
  | refl c => exact ⟨[], rfl, rfl, rfl⟩
  | @layout c d ts _ ih =>
      obtain ⟨taken, hrest, hoffset, htokens⟩ := ih hd
      rw [rest_skip] at hrest
      refine ⟨(splitLayout c.rest).1 ++ taken, ?_, ?_, ?_⟩
      · rw [List.append_assoc, ← hrest, splitLayout_append]
      · rw [hoffset, List.length_append, ← Nat.add_assoc]
        rfl
      · rw [hd, ← List.append_assoc] at hrest
        rw [List.append_assoc, tokensOf_layout_append hrest, htokens]
  | @step c d e t ts hs _ ih =>
      obtain ⟨taken, hrest, hoffset, htokens⟩ := ih hd
      obtain @⟨ch, cs, hsettled, hc⟩ := hs
      rw [rest_advance_next hc] at hrest
      refine ⟨(Token.next ch cs).1.text.toList ++ taken, ?_, ?_, ?_⟩
      · rw [List.append_assoc, ← hrest, Token.text_next_append, hc]
      · rw [hoffset, List.length_append, ← Nat.add_assoc]
        rfl
      · rw [hd, ← List.append_assoc] at hrest
        rw [List.append_assoc, tokensOf_text_append (hc ▸ splitLayout_of_settled hsettled) hrest,
          htokens, List.cons_append]

/-- What is passed on the way, cut out. -/
theorem Passes.exists_taken {c d : Cursor} {ts : List Token} (h : Passes c ts d) :
    ∃ taken, c.rest = taken ++ d.rest ∧ d.offset = c.offset + taken.length ∧
      tokensOf taken = ts := by
  obtain ⟨taken, hrest, hoffset, htokens⟩ := h.exists_taken_append (List.nil_append d.rest).symm
  rw [List.append_nil, tokensOf_nil, List.append_nil] at htokens
  exact ⟨taken, hrest, hoffset, htokens⟩

theorem Passes.tokensOf_upTo {c d : Cursor} {ts : List Token} (h : Passes c ts d) :
    tokensOf (c.upTo d) = ts := by
  obtain ⟨taken, hrest, hoffset, htokens⟩ := h.exists_taken
  rwa [upTo, hrest, hoffset, Nat.add_sub_cancel_left, List.take_left]

end Cursor
end MonkeyLang
