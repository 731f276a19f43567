import MonkeyLang.Proofs.Parse.Legality
import MonkeyLang.Proofs.Parse.Weight

/-!
Renderings of statements that stand next to each other. A word grows by the word or the digits
behind it and a number by the digits behind it, so two tokens become one. Nothing else is read
differently than it is rendered: the text of a program has the tokens of its rendering, or it
weighs less.
-/
namespace MonkeyLang

/-- The text has the tokens, whatever stands behind it, unless that makes everything lighter. -/
def Yields (cs : List Char) (ts : List Token) : Prop :=
  ∀ r : List Char, tokensOf (cs ++ r) = ts ++ tokensOf r ∨
    weigh (tokensOf (cs ++ r)) < weigh ts + weigh (tokensOf r)

namespace Yields

variable {cs ds : List Char} {ts us : List Token}

theorem weigh_le (h : Yields cs ts) (r : List Char) :
    weigh (tokensOf (cs ++ r)) ≤ weigh ts + weigh (tokensOf r) := by
  rcases h r with heq | hlt
  · exact Nat.le_of_eq (by rw [heq, weigh_append])
  · exact Nat.le_of_lt hlt

theorem append (h : Yields cs ts) (h' : Yields ds us) : Yields (cs ++ ds) (ts ++ us) := by
  intro r
  have hle := h'.weigh_le r
  rw [List.append_assoc, weigh_append]
  rcases h (ds ++ r) with heq | hlt
  · rw [heq, weigh_append]
    rcases h' r with heq' | hlt'
    · exact .inl (by rw [heq', List.append_assoc])
    · exact .inr (by omega)
  · exact .inr (by omega)

/-- Tokens in front of a text that are read for themselves. -/
theorem behind {w : List Char} {u : List Token} (h : Yields cs ts)
    (hw : ∀ r, tokensOf (w ++ (cs ++ r)) = u ++ tokensOf (cs ++ r)) :
    Yields (w ++ cs) (u ++ ts) := by
  intro r
  rw [List.append_assoc, hw, List.append_assoc, weigh_append, weigh_append]
  exact (h r).imp (congrArg _) fun hlt => by omega

theorem mark (ch : Char) (h : Yields cs ts)
    (hch : ch ∈ ['(', ')', '\x7b', '\x7d', ',', ';'] := by decide) :
    Yields (ch :: cs) (.symbol ch :: ts) :=
  h.behind (w := [ch]) (u := [_]) fun r => tokensOf_mark (cs ++ r) hch

theorem blank (h : Yields cs ts) : Yields (' ' :: cs) ts :=
  h.behind (w := [' ']) (u := []) fun r => tokensOf_blank (by decide) (cs ++ r)

theorem equals (h : Yields cs ts) : Yields ('=' :: ' ' :: cs) (.symbol '=' :: ts) :=
  h.blank.behind (w := ['=']) (u := [_]) fun r =>
    tokensOf_symbol_append (r := ' ' :: cs ++ r) (by decide) (by decide) rfl

/-- Behind a keyword there is a blank, or else a parenthesis. -/
theorem keyword (k : Keyword) {ch : Char} (hch : isWordPart ch = false)
    (h : Yields (ch :: cs) ts) : Yields (k.text.toList ++ ch :: cs) (.keyword k :: ts) :=
  h.behind (u := [_]) fun r => tokensOf_keyword k (r := ch :: cs ++ r) hch

theorem unary (op : UnaryOp) {ch : Char} (hch : ch ≠ '=') (h : Yields (ch :: cs) ts) :
    Yields (op.text.toList ++ ch :: cs) (op.token :: ts) :=
  h.behind (u := [_]) fun r => tokensOf_unary op (r := ch :: cs ++ r) (by simpa using hch)

theorem binary (op : BinaryOp) (h : Yields cs ts) :
    Yields (op.text.toList ++ ' ' :: cs) (op.token :: ts) :=
  h.blank.behind (u := [_]) fun r =>
    (tokensOf_binary op (cs ++ r)).trans
      (congrArg _ (tokensOf_blank (by decide : isBlank ' ' = true) (cs ++ r)).symm)

end Yields

theorem yields_nil : Yields [] [] := fun _ => .inl rfl

theorem exists_tokensOf_word {r : List Char} (h : r.head?.any isWordStart = true) :
    ∃ t : Token, t.weight = 1 ∧ tokensOf r = t :: tokensOf (r.dropWhile isWordPart) := by
  have hword : (r.takeWhile isWordPart).head?.any isWordStart = true := by
    cases r with
    | nil => cases h
    | cons c cs =>
        rw [List.takeWhile_cons_of_pos (isWordPart_of_isWordStart h)]
        exact h
  refine ⟨_, Token.weight_ofWord (String.ofList (r.takeWhile isWordPart)), ?_⟩
  have htokens := tokensOf_word_append hword (List.all_eq_true.mp List.all_takeWhile)
    (head?_dropWhile_any isWordPart r)
  rwa [List.takeWhile_append_dropWhile] at htokens

theorem exists_tokensOf_digits {r : List Char} (h : r.head?.any Char.isDigit = true) :
    ∃ t : Token, t.weight = 1 ∧ tokensOf r = t :: tokensOf (r.dropWhile Char.isDigit) := by
  have hne : r.takeWhile Char.isDigit ≠ [] := by
    cases r with
    | nil => cases h
    | cons c cs =>
        have hc : c.isDigit = true := h
        rw [List.takeWhile_cons_of_pos hc]
        exact List.cons_ne_nil _ _
  refine ⟨_, Token.weight_numeral (String.ofList (r.takeWhile Char.isDigit)), ?_⟩
  have htokens := tokensOf_digits_append hne (List.all_eq_true.mp List.all_takeWhile)
    (head?_dropWhile_any Char.isDigit r)
  rwa [List.takeWhile_append_dropWhile] at htokens

theorem dropWhile_dropWhile_digits (r : List Char) :
    (r.dropWhile Char.isDigit).dropWhile isWordPart = r.dropWhile isWordPart := by
  induction r with
  | nil => rfl
  | cons c cs ih =>
      by_cases hdigit : c.isDigit = true
      · rw [List.dropWhile_cons_of_pos hdigit, ih,
          List.dropWhile_cons_of_pos (isWordPart_of_isDigit hdigit)]
      · rw [List.dropWhile_cons_of_neg hdigit]

theorem isWordStart_or_isDigit {c : Char} (h : isWordPart c = true) :
    isWordStart c = true ∨ c.isDigit = true := by
  simp only [isWordPart, isWordStart, Char.isAlphanum, Bool.or_eq_true] at *
  grind

theorem dropWhile_isWordPart_eq_self {r : List Char} (hstart : r.head?.any isWordStart = false)
    (hdigit : r.head?.any Char.isDigit = false) : r.dropWhile isWordPart = r := by
  cases r with
  | nil => rfl
  | cons c cs =>
      refine List.dropWhile_cons_of_neg fun hpart => ?_
      rcases isWordStart_or_isDigit hpart with hs | hd
      · exact Bool.eq_false_iff.mp hstart hs
      · exact Bool.eq_false_iff.mp hdigit hd

/-- Word characters at the head of a text are at least one token, so the text weighs less without
them. -/
theorem weigh_dropWhile_lt {r : List Char} (h : r.head?.any isWordPart = true) :
    weigh (tokensOf (r.dropWhile isWordPart)) < weigh (tokensOf r) := by
  obtain ⟨c, cs, rfl⟩ : ∃ c cs, r = c :: cs := by
    cases r with
    | nil => cases h
    | cons c cs => exact ⟨c, cs, rfl⟩
  rcases isWordStart_or_isDigit h with hstart | hdigit
  · obtain ⟨t, ht, htokens⟩ := exists_tokensOf_word (r := c :: cs) hstart
    rw [htokens, weigh_cons, ht]
    omega
  · obtain ⟨t, ht, htokens⟩ := exists_tokensOf_digits (r := c :: cs) hdigit
    rw [htokens, weigh_cons, ht, ← dropWhile_dropWhile_digits]
    -- Behind the digits either a word begins, which goes too, or nothing more does.
    cases hrest : ((c :: cs).dropWhile Char.isDigit).head?.any isWordStart with
    | true =>
        obtain ⟨u, hu, hmore⟩ := exists_tokensOf_word hrest
        rw [hmore, weigh_cons, hu]
        omega
    | false =>
        rw [dropWhile_isWordPart_eq_self hrest (head?_dropWhile_any _ _)]
        omega

theorem head?_append_any {p : Char → Bool} {w : List Char} (h : w.head?.any p = true)
    (r : List Char) : (w ++ r).head?.any p = true := by
  cases w with
  | nil => cases h
  | cons c cs => exact h

/-- A word and what it grows by are one token. -/
theorem yields_word {word : String} (hstart : word.toList.head?.any isWordStart = true)
    (hpart : ∀ c ∈ word.toList, isWordPart c = true) : Yields word.toList [Token.ofWord word] := by
  intro r
  cases hr : r.head?.any isWordPart with
  | false =>
      left
      rw [tokensOf_word_append hstart hpart hr, String.ofList_toList, List.singleton_append]
  | true =>
      obtain ⟨t, ht, htokens⟩ := exists_tokensOf_word (head?_append_any hstart r)
      have hlt := weigh_dropWhile_lt hr
      rw [List.dropWhile_append_of_pos hpart] at htokens
      right
      rw [htokens, weigh_cons, ht, weigh_cons, weigh_nil, Token.weight_ofWord]
      omega

theorem yields_name {text : String} (h : IsName text) : Yields text.toList [.name text] := by
  rw [← Token.ofWord_of_isName h]
  exact yields_word h.1 (List.all_eq_true.mp h.2.1)

theorem yields_boolean (value : Bool) :
    Yields (Keyword.ofBool value).text.toList [.keyword (.ofBool value)] := by
  rw [← Token.ofWord_text]
  exact yields_word (by cases value <;> decide) (Keyword.ofBool value).isWordPart_text

/-- A number and the digits it grows by are one token. -/
theorem yields_numeral {digits : String} (h : IsNumeral digits) :
    Yields digits.toList [.numeral digits] := by
  intro r
  cases hr : r.head?.any Char.isDigit with
  | false => exact .inl (tokensOf_append (t := .numeral digits) h hr)
  | true =>
      have hdigits := List.all_eq_true.mp h.2
      have hfirst : digits.toList.head?.any Char.isDigit = true := by
        obtain ⟨c, cs, hcs⟩ := List.exists_cons_of_ne_nil h.1
        rw [hcs] at hdigits ⊢
        exact hdigits c List.mem_cons_self
      obtain ⟨t, ht, htokens⟩ := exists_tokensOf_digits (head?_append_any hfirst r)
      obtain ⟨u, hu, hrest⟩ := exists_tokensOf_digits hr
      rw [List.dropWhile_append_of_pos hdigits] at htokens
      right
      rw [htokens, hrest, weigh_cons, ht, weigh_cons, weigh_nil, weigh_cons, hu,
        Token.weight_numeral]
      omega

theorem yields_intercalate {texts : List String} {items : List (List Token)}
    (h : List.Forall₂ (fun text item => Yields text.toList item) texts items) :
    Yields (", ".intercalate texts).toList (separated items) := by
  induction h with
  | nil => exact yields_nil
  | @cons text item texts items hitem hitems ih =>
      cases hitems with
      | nil =>
          rw [String.intercalate_singleton]
          exact hitem
      | @cons next nextItem texts items hnext hmore =>
          have hall : Yields (text.toList ++ ',' :: ' ' :: _) (item ++ .symbol ',' :: _) :=
            hitem.append (ih.blank.mark ',')
          simpa [separated] using hall

theorem forall₂_yields_names {names : List String} (h : ∀ name ∈ names, IsName name) :
    List.Forall₂ (fun text item => Yields text.toList item) names (names.map ([.name ·])) := by
  rw [List.forall₂_map_right_iff, List.forall₂_same]
  exact fun name hname => yields_name (h name hname)

theorem Yields.block {ss : List Statement} {ts : List Token}
    (h : Yields (renderStatements ss).toList ts) : Yields (renderBlock ss).toList (braced ts) := by
  cases ss with
  | nil =>
      have hall := (h.append (yields_nil.mark '\x7d')).mark '\x7b'
      simpa [renderBlock, renderStatements, braced] using hall
  | cons s ss =>
      have hall := (h.append (yields_nil.mark '\x7d').blank).blank.mark '\x7b'
      simpa [renderBlock, renderStatements, braced] using hall

mutual

theorem Expression.yields : (e : Expression) → e.Legal → Yields e.render.toList e.tokens
  | .name text, hl => by
      rw [Expression.render]
      exact yields_name hl
  | .integer value, hl => by
      obtain ⟨n, -, htext⟩ := exists_toString_eq hl
      rw [Expression.render, Expression.tokens, Expression.wrap, Expression.bareTokens, htext]
      exact yields_numeral (isNumeral_toString n)
  | .boolean true, _ => by
      rw [Expression.render]
      exact yields_boolean true
  | .boolean false, _ => by
      rw [Expression.render]
      exact yields_boolean false
  | .unary op operand, hl => by
      obtain ⟨c, cs, hrender, hc⟩ := operand.exists_render_eq hl
      have hoperand := (operand.yields hl).append (yields_nil.mark ')')
      rw [hrender] at hoperand
      have hall := (hoperand.unary op hc).mark '('
      simpa [Expression.tokens_unary, parenthesized, Expression.render, hrender] using hall
  | .binary left op right, hl => by
      have hright := ((right.yields hl.2).append (yields_nil.mark ')')).binary op
      have hall := ((left.yields hl.1).append hright.blank).mark '('
      simpa [Expression.tokens_binary, parenthesized, Expression.render] using hall
  | .conditional test yes none, hl => by
      have hyes := (yields_renderStatements yes hl.2).block
      have hall := ((test.yields hl.1).append hyes.blank).blank.keyword .ifWord rfl
      simpa [Expression.tokens_ifThen, Expression.render, Keyword.text] using hall
  | .conditional test yes (some no), hl => by
      have hyes := (yields_renderStatements yes hl.2.1).block
      have hno := (yields_renderStatements no hl.2.2).block.blank.keyword .elseWord rfl
      have hall := ((test.yields hl.1).append (hyes.append hno.blank).blank).blank.keyword
        .ifWord rfl
      simpa [Expression.tokens_ifThenElse, Expression.render, Keyword.text] using hall
  | .function params body, hl => by
      have hbody := (yields_renderStatements body hl.2).block
      have hparams := (yields_intercalate (forall₂_yields_names hl.1)).append (hbody.blank.mark ')')
      have hall := (hparams.mark '(').keyword .fnWord rfl
      simpa [Expression.tokens_function, parenthesized, Expression.render, Keyword.text] using hall
  | .call callee args, hl => by
      have hargs := (yields_intercalate (yields_renderEach args hl.2)).append (yields_nil.mark ')')
      have hall := (callee.yields hl.1).append (hargs.mark '(')
      simpa [Expression.tokens_call, parenthesized, Expression.render] using hall

theorem Statement.yields : (s : Statement) → s.Legal → Yields s.render.toList s.tokens
  | .binding name value, hl => by
      have hvalue := ((value.yields hl.2).append (yields_nil.mark ';')).equals.blank
      have hall := ((yields_name hl.1).append hvalue).blank.keyword .letWord rfl
      simpa [Statement.tokens_binding, Statement.render, Keyword.text] using hall
  | .returning value, hl => by
      have hall := ((value.yields hl).append (yields_nil.mark ';')).blank.keyword .returnWord rfl
      simpa [Statement.tokens_returning, Statement.render, Keyword.text] using hall
  | .expression value, hl => by
      rw [Statement.render]
      exact value.yields hl

theorem yields_renderStatements : (ss : List Statement) → StatementsLegal ss →
    Yields (renderStatements ss).toList (statementsTokens ss)
  | [], _ => yields_nil
  | s :: ss, hl => by
      rw [renderStatements, String.toList_append]
      exact (s.yields hl.1).append (yields_renderStatements ss hl.2)

theorem yields_renderEach : (es : List Expression) → ExpressionsLegal es →
    List.Forall₂ (fun text item => Yields text.toList item) (renderEach es) (argumentTokens es)
  | [], _ => .nil
  | e :: es, hl => .cons (e.yields hl.1) (yields_renderEach es hl.2)

end

/-- The rendering of a program has its tokens, or it weighs less than the program. -/
theorem Program.tokensOf_render_or_lt {p : Program} (hl : p.Legal) :
    tokensOf p.render.toList = statementsTokens p.statements ∨
      weigh (tokensOf p.render.toList) < p.weight := by
  have h := yields_renderStatements p.statements hl []
  rwa [List.append_nil, tokensOf_nil, List.append_nil, weigh_nil, Nat.add_zero,
    ← weight_eq_weigh] at h

end MonkeyLang
