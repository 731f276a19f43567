import MonkeyLang.Proofs.Lexing.Tokens

/-!
Joining texts. Behind a semicolon that is a token of its own a text can be cut: the tokens of the
two parts are those of the whole. A semicolon inside a comment is no such place. A newline always
is: it ends a comment as it ends a word.
-/
namespace MonkeyLang

/-- The text ends with a semicolon, which is a token. -/
def EndsWithSemicolon (text : String) : Prop :=
  ∃ cs, text.toList = cs ++ [';'] ∧ tokensOf text.toList = tokensOf cs ++ [.symbol ';']

/-- Where no comment begins, none begins if a character is added that is no slash. -/
theorem not_comment_append {c ch : Char} {cs rest : List Char} (hch : ch ≠ '/')
    (h : ∀ ds, c = '/' → cs = '/' :: ds → False) (ds : List Char) (hc : c = '/')
    (hds : cs ++ ch :: rest = '/' :: ds) : False := by
  cases cs with
  | nil =>
      cases hds
      exact hch rfl
  | cons d cs =>
      cases hds
      exact h cs hc rfl

/-- Layout that reaches up to a semicolon ends there, unless the semicolon belongs to it. -/
theorem splitLayoutFrom_append_semicolon (inComment : Bool) (cs rest : List Char)
    (h : (splitLayoutFrom inComment (cs ++ [';'])).2 ≠ []) :
    (splitLayoutFrom inComment (cs ++ ';' :: rest)).2 =
      (splitLayoutFrom inComment cs).2 ++ ';' :: rest := by
  fun_induction splitLayoutFrom inComment cs with
  | case1 inComment =>
      cases inComment with
      | false => rfl
      | true => exact absurd rfl h
  | case2 c cs layout cut hcut ih =>
      rw [hcut] at ih
      exact ih h
  | case3 cs layout cut hcut ih =>
      rw [hcut] at ih
      exact ih h
  | case4 c cs hslash hc layout cut hcut ih =>
      have hne : c ≠ '/' := by
        rintro rfl
        exact absurd hc (by decide)
      have hskip (ds : List Char) :
          (splitLayoutFrom false (c :: ds)).2 = (splitLayoutFrom false ds).2 := by
        rw [splitLayoutFrom.eq_4 c ds fun _ hch _ => hne hch, if_pos hc]
      rw [hcut] at ih
      rw [List.cons_append, hskip] at h ⊢
      exact ih h
  | case5 c cs hslash hc =>
      rw [List.cons_append,
        splitLayoutFrom.eq_4 c _ (not_comment_append (by decide) hslash), if_neg hc]

theorem takeWhile_append_stop (p : Char → Bool) (ch : Char) (h : p ch = false)
    (cs rest : List Char) :
    (cs ++ ch :: rest).takeWhile p = cs.takeWhile p ∧
      (cs ++ ch :: rest).dropWhile p = cs.dropWhile p ++ ch :: rest := by
  induction cs with
  | nil => simp [h]
  | cons c cs ih => by_cases hc : p c <;> simp [hc, ih]

/-- No token goes on with a character that is neither a part of a word nor the second half of a
token. -/
theorem Token.next_append_stop {ch : Char} (hword : isWordPart ch = false)
    (hdigit : ch.isDigit = false) (hhalf : ch ≠ '=') (c : Char) (cs rest : List Char) :
    next c (cs ++ ch :: rest) = ((next c cs).1, (next c cs).2 ++ ch :: rest) := by
  obtain ⟨hpart, hafter⟩ := takeWhile_append_stop isWordPart ch hword cs rest
  obtain ⟨hdigits, hbehind⟩ := takeWhile_append_stop Char.isDigit ch hdigit cs rest
  unfold next
  rw [hpart, hafter, hdigits, hbehind]
  clear hpart hafter hdigits hbehind
  by_cases hstart : isWordStart c
  · simp [hstart]
  by_cases hdigit : c.isDigit
  · simp [hstart, hdigit]
  · rw [if_neg hstart, if_neg hdigit, if_neg hstart, if_neg hdigit]
    cases cs with
    | nil => split <;> simp_all
    | cons d cs => split <;> split <;> simp_all

theorem tokensOf_append_semicolon (cs rest : List Char)
    (h : tokensOf (cs ++ [';']) = tokensOf cs ++ [.symbol ';']) :
    tokensOf (cs ++ ';' :: rest) = tokensOf cs ++ .symbol ';' :: tokensOf rest := by
  have hne : (splitLayout (cs ++ [';'])).2 ≠ [] := by
    intro hnil
    rw [tokensOf_eq_nil hnil] at h
    exact List.append_ne_nil_of_right_ne_nil _ (List.cons_ne_nil _ _) h.symm
  have hcut (ds : List Char) :
      (splitLayout (cs ++ ';' :: ds)).2 = (splitLayout cs).2 ++ ';' :: ds :=
    splitLayoutFrom_append_semicolon false cs ds hne
  cases hc : (splitLayout cs).2 with
  | nil =>
      have hmark : Token.next ';' rest = (.symbol ';', rest) := by rfl
      have hsplit := hcut rest
      rw [hc, List.nil_append] at hsplit
      rw [tokensOf_eq_cons hsplit, tokensOf_eq_nil hc, hmark, List.nil_append]
  | cons c w =>
      have hsplit (ds : List Char) : tokensOf (cs ++ ';' :: ds) =
          (Token.next c w).1 :: tokensOf ((Token.next c w).2 ++ ';' :: ds) := by
        have hds := hcut ds
        rw [hc, List.cons_append] at hds
        rw [tokensOf_eq_cons hds, Token.next_append_stop (by decide) (by decide) (by decide)]
      have hlt := Token.length_next_lt hc
      rw [hsplit, tokensOf_eq_cons hc, List.cons_append] at h
      rw [hsplit, tokensOf_eq_cons hc, List.cons_append,
        tokensOf_append_semicolon _ rest (List.cons.inj h).2]
termination_by cs.length

theorem EndsWithSemicolon.tokensOf_append {text : String} (h : EndsWithSemicolon text)
    (other : String) :
    tokensOf (text ++ other).toList = tokensOf text.toList ++ tokensOf other.toList := by
  obtain ⟨cs, hcs, ht⟩ := h
  rw [hcs] at ht
  rw [String.toList_append, hcs, ht, List.append_assoc, List.append_assoc]
  exact tokensOf_append_semicolon cs other.toList ht

theorem splitLayoutFrom_append_newline (inComment : Bool) (cs rest : List Char) :
    (splitLayoutFrom inComment (cs ++ '\n' :: rest)).2 =
      if (splitLayoutFrom inComment cs).2 = [] then (splitLayout rest).2
      else (splitLayoutFrom inComment cs).2 ++ '\n' :: rest := by
  fun_induction splitLayoutFrom inComment cs with
  | case1 inComment => cases inComment <;> rfl
  | case2 c cs layout cut hcut ih =>
      rw [hcut] at ih
      exact ih
  | case3 cs layout cut hcut ih =>
      rw [hcut] at ih
      exact ih
  | case4 c cs hslash hc layout cut hcut ih =>
      have hne : c ≠ '/' := by
        rintro rfl
        exact absurd hc (by decide)
      rw [hcut] at ih
      rw [List.cons_append, splitLayoutFrom.eq_4 c _ fun _ hch _ => hne hch, if_pos hc]
      exact ih
  | case5 c cs hslash hc =>
      rw [List.cons_append,
        splitLayoutFrom.eq_4 c _ (not_comment_append (by decide) hslash), if_neg hc,
        if_neg (List.cons_ne_nil _ _)]

theorem tokensOf_append_newline (cs rest : List Char) :
    tokensOf (cs ++ '\n' :: rest) = tokensOf cs ++ tokensOf rest := by
  have hsplit : (splitLayout (cs ++ '\n' :: rest)).2 =
      if (splitLayout cs).2 = [] then (splitLayout rest).2
      else (splitLayout cs).2 ++ '\n' :: rest :=
    splitLayoutFrom_append_newline false cs rest
  cases hc : (splitLayout cs).2 with
  | nil =>
      rw [if_pos hc] at hsplit
      rw [tokensOf_eq_nil hc, List.nil_append, ← tokensOf_splitLayout, hsplit,
        tokensOf_splitLayout]
  | cons c w =>
      rw [if_neg (hc ▸ List.cons_ne_nil c w), hc, List.cons_append] at hsplit
      have hlt := Token.length_next_lt hc
      rw [tokensOf_eq_cons hsplit, Token.next_append_stop (by decide) (by decide) (by decide),
        tokensOf_append_newline, tokensOf_eq_cons hc, List.cons_append]
termination_by cs.length

end MonkeyLang
