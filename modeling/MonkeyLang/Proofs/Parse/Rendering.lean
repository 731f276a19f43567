import Mathlib.Data.List.Forall2
import MonkeyLang.Proofs.Parse.Spelling
import MonkeyLang.Proofs.Program.Printable

/-!
Rendering and parsing. The rendering of a printable program is one of the ways of writing it. What
tokens a rendering has does not depend on the conditions in it, only on the statements that stand
next to each other.
-/
namespace MonkeyLang

/-- The tokens of an expression, given those without its parentheses. -/
def Expression.wrap (e : Expression) (ts : List Token) : List Token :=
  if e.isOperation then parenthesized ts else ts

mutual

def Expression.bareTokens : Expression → List Token
  | .name text => [.name text]
  | .integer value => [.numeral (toString value.toInt)]
  | .boolean value => [.keyword (.ofBool value)]
  | .unary op operand => op.token :: operand.wrap operand.bareTokens
  | .binary left op right =>
      left.wrap left.bareTokens ++ op.token :: right.wrap right.bareTokens
  | .conditional test yes none =>
      .keyword .ifWord :: test.wrap test.bareTokens ++ braced (statementsTokens yes)
  | .conditional test yes (some no) =>
      .keyword .ifWord :: test.wrap test.bareTokens ++ braced (statementsTokens yes) ++
        .keyword .elseWord :: braced (statementsTokens no)
  | .function params body =>
      .keyword .fnWord :: parenthesized (separated (params.map ([.name ·]))) ++
        braced (statementsTokens body)
  | .call callee args =>
      callee.wrap callee.bareTokens ++ parenthesized (separated (argumentTokens args))

def Statement.tokens : Statement → List Token
  | .binding name value =>
      .keyword .letWord :: .name name :: .symbol '=' ::
        (value.wrap value.bareTokens ++ [.symbol ';'])
  | .returning value => .keyword .returnWord :: (value.wrap value.bareTokens ++ [.symbol ';'])
  | .expression value => value.wrap value.bareTokens

def statementsTokens : List Statement → List Token
  | [] => []
  | s :: ss => s.tokens ++ statementsTokens ss

def argumentTokens : List Expression → List (List Token)
  | [] => []
  | e :: es => e.wrap e.bareTokens :: argumentTokens es

end

def Expression.tokens (e : Expression) : List Token := e.wrap e.bareTokens

section Tokens

variable (e test callee : Expression) (yes no body : List Statement)

theorem Expression.tokens_unary (op : UnaryOp) :
    tokens (.unary op e) = parenthesized (op.token :: e.tokens) :=
  rfl

theorem Expression.tokens_binary (left : Expression) (op : BinaryOp) (right : Expression) :
    tokens (.binary left op right) = parenthesized (left.tokens ++ op.token :: right.tokens) :=
  rfl

theorem Expression.tokens_ifThen :
    tokens (.conditional test yes none) =
      .keyword .ifWord :: test.tokens ++ braced (statementsTokens yes) :=
  rfl

theorem Expression.tokens_ifThenElse :
    tokens (.conditional test yes (some no)) =
      .keyword .ifWord :: test.tokens ++ braced (statementsTokens yes) ++
        .keyword .elseWord :: braced (statementsTokens no) :=
  rfl

theorem Expression.tokens_function (params : List String) :
    tokens (.function params body) =
      .keyword .fnWord :: parenthesized (separated (params.map ([.name ·]))) ++
        braced (statementsTokens body) :=
  rfl

theorem Expression.tokens_call (args : List Expression) :
    tokens (.call callee args) =
      callee.tokens ++ parenthesized (separated (argumentTokens args)) :=
  rfl

theorem Statement.tokens_binding (name : String) :
    tokens (.binding name e) =
      .keyword .letWord :: .name name :: .symbol '=' :: (e.tokens ++ [.symbol ';']) :=
  rfl

theorem Statement.tokens_returning :
    tokens (.returning e) = .keyword .returnWord :: (e.tokens ++ [.symbol ';']) :=
  rfl

end Tokens

theorem Expression.wrap_of_isOperation {e : Expression} (h : e.isOperation = true)
    (ts : List Token) : e.wrap ts = parenthesized ts :=
  if_pos h

theorem isNumeral_toString (n : Nat) : IsNumeral (toString n) := by
  refine ⟨by simp, List.all_eq_true.mpr fun c hc => ?_⟩
  rw [Nat.toString_eq_repr, Nat.repr_eq_ofList_toDigits, String.toList_ofList] at hc
  exact Nat.isDigit_of_mem_toDigits (by decide) (Nat.le_refl 10) hc

theorem numeralValue_toString (n : Nat) : numeralValue (toString n).toList = n := by
  simp [numeralValue]

theorem exists_toString_eq {value : Int64} (h : 0 ≤ value.toInt) :
    ∃ n : Nat, value.toInt = n ∧ toString value.toInt = toString n := by
  obtain ⟨n, hn⟩ := Int.eq_ofNat_of_zero_le h
  exact ⟨n, hn, hn ▸ rfl⟩

theorem Spells.wrap {level : Nat} {e : Expression} {ts : List Token} (hlevel : level ≤ 6)
    (h : Spells (.bare e) ts) : Spells (.operand level e) (e.wrap ts) := by
  have hbare (hop : 6 ≤ e.level) : Spells (.operand level e) ts :=
    .unwrapped (Nat.le_trans hlevel hop) h
  cases e with
  | unary op operand => exact .wrapped (.unwrapped (Nat.zero_le _) h)
  | binary left op right => exact .wrapped (.unwrapped (Nat.zero_le _) h)
  | name _ | integer _ | boolean _ | conditional _ _ _ | function _ _ | call _ _ =>
      exact hbare (by simp [Expression.level])

/-- An expression whose tokens begin with a parenthesis is rendered with one in front. -/
theorem Expression.exists_tokens_eq : (e : Expression) → ∃ t ts, e.tokens = t :: ts ∧
    t ≠ .symbol '-' ∧ (t = .symbol '(' → e.render.toList.head? = some '(')
  | .name _ | .integer _ | .boolean _ | .conditional _ _ none | .conditional _ _ (some _)
  | .function _ _ => ⟨_, _, rfl, nofun, nofun⟩
  | .unary _ _ | .binary _ _ _ => ⟨_, _, rfl, by decide, fun _ => by simp [Expression.render]⟩
  | .call callee args => by
      obtain ⟨t, ts, htokens, hminus, hparen⟩ := callee.exists_tokens_eq
      refine ⟨t, ts ++ parenthesized (separated (argumentTokens args)), ?_, hminus, ?_⟩
      · rw [tokens_call, htokens, List.cons_append]
      · intro ht
        simp [Expression.render, List.head?_append, hparen ht]

theorem Statement.exists_tokens_eq (s : Statement) : ∃ t ts, s.tokens = t :: ts ∧
    t ≠ .symbol '-' ∧ (t = .symbol '(' → s.render.toList.head? = some '(') := by
  cases s with
  | binding _ _ => exact ⟨_, _, rfl, nofun, nofun⟩
  | returning _ => exact ⟨_, _, rfl, nofun, nofun⟩
  | expression value => exact value.exists_tokens_eq

theorem Statement.StandsBefore.head?_ne {e : Expression} {cs : List Char}
    (h : Statement.StandsBefore (.expression e) cs) : cs.head? ≠ some '(' := by
  cases e with
  | name _ | boolean _ => exact h.elim
  | integer _ => exact h.1
  | unary _ _ | binary _ _ _ | conditional _ _ _ | function _ _ | call _ _ => exact h

/-- An expression that needs no semicolon before the statements behind it. -/
theorem not_goesOn {e : Expression} : (ss : List Statement) →
    (∀ next ∈ ss.head?, Statement.StandsBefore (.expression e) next.render.toList) →
    ss = [] ∨ ∀ t ∈ (statementsTokens ss).head?, t ≠ .symbol '(' ∧ t ≠ .symbol '-'
  | [], _ => .inl rfl
  | next :: ss, h => by
      obtain ⟨t, ts, htokens, hminus, hparen⟩ := next.exists_tokens_eq
      refine .inr fun u hu => ?_
      rw [statementsTokens, htokens] at hu
      cases hu
      exact ⟨fun ht => (h next rfl).head?_ne (hparen ht), hminus⟩

mutual

theorem Expression.spells : (e : Expression) → e.Legal → e.Printable →
    Spells (.bare e) e.bareTokens
  | .name text, _, _ => .name text
  | .integer value, hl, _ => by
      obtain ⟨n, hn, htext⟩ := exists_toString_eq hl
      rw [Expression.bareTokens, htext]
      exact .integer (isNumeral_toString n) (by rw [numeralValue_toString, hn])
  | .boolean value, _, _ => .boolean value
  | .unary op operand, hl, hp => .unary op ((operand.spells hl hp).wrap (by decide))
  | .binary left op right, hl, hp =>
      have hlt := Expression.level_binary_lt left right op
      .binary op ((left.spells hl.1 hp.1).wrap (Nat.le_of_lt hlt))
        ((right.spells hl.2 hp.2).wrap hlt)
  | .conditional test yes none, hl, hp => by
      -- The condition is an operation, so the parentheses of the `if` are its own.
      rw [Expression.bareTokens, Expression.wrap_of_isOperation hp.1]
      exact .ifThen (.unwrapped (Nat.zero_le _) (test.spells hl.1 hp.2.1))
        (spells_statements yes hl.2 hp.2.2)
  | .conditional test yes (some no), hl, hp => by
      rw [Expression.bareTokens, Expression.wrap_of_isOperation hp.1]
      exact .ifThenElse (.unwrapped (Nat.zero_le _) (test.spells hl.1 hp.2.1))
        (spells_statements yes hl.2.1 hp.2.2.1) (spells_statements no hl.2.2 hp.2.2.2)
  | .function params body, hl, hp => .function params (spells_statements body hl.2 hp)
  | .call callee args, hl, hp =>
      .call ((callee.spells hl.1 hp.1).wrap (Nat.le_refl 6)) (spells_arguments args hl.2 hp.2)

theorem spells_statements : (ss : List Statement) → StatementsLegal ss → StatementsPrintable ss →
    Spells (.statements ss) (statementsTokens ss)
  | [], _, _ => .noStatement
  | .binding name value :: ss, hl, hp => by
      have hvalue := (value.spells hl.1.2 hp.1).wrap (Nat.zero_le 6)
      have h := (Spells.binding name hvalue).ended (spells_statements ss hl.2 hp.2.2)
      simpa [statementsTokens, Statement.tokens] using h
  | .returning value :: ss, hl, hp => by
      have hvalue := (value.spells hl.1 hp.1).wrap (Nat.zero_le 6)
      have h := (Spells.returning hvalue).ended (spells_statements ss hl.2 hp.2.2)
      simpa [statementsTokens, Statement.tokens] using h
  | .expression value :: ss, hl, hp =>
      .unended (.expression ((value.spells hl.1 hp.1).wrap (Nat.zero_le 6)))
        (spells_statements ss hl.2 hp.2.2) (not_goesOn ss hp.2.1)

theorem spells_arguments : (es : List Expression) → ExpressionsLegal es →
    ExpressionsPrintable es → Spells (.items es) (separated (argumentTokens es))
  | [], _, _ => .noItem
  | [e], hl, hp => .item ((e.spells hl.1 hp.1).wrap (Nat.zero_le 6))
  | e :: next :: es, hl, hp =>
      .moreItems ((e.spells hl.1 hp.1).wrap (Nat.zero_le 6))
        (spells_arguments (next :: es) hl.2 hp.2)

end

/-- Whether the character would lengthen the rendering. -/
def Expression.clashes : Expression → Char → Bool
  | .name _ | .boolean _ => isWordPart
  | .integer _ => Char.isDigit
  | .unary _ _ | .binary _ _ _ | .conditional _ _ _ | .function _ _ | .call _ _ => fun _ => false

def Statement.clashes : Statement → Char → Bool
  | .binding _ _ | .returning _ => fun _ => false
  | .expression value => value.clashes

/-- The text has the tokens, wherever no word goes on behind it. -/
def Writes (text : String) (ts : List Token) : Prop :=
  ∀ r : List Char, r.head?.any isWordPart = false → tokensOf (text.toList ++ r) = ts ++ tokensOf r

theorem Expression.any_clashes (e : Expression) {r : List Char}
    (h : r.head?.any isWordPart = false) : r.head?.any e.clashes = false := by
  cases e with
  | name _ | boolean _ => exact h
  | integer _ =>
      cases r with
      | nil => rfl
      | cons c cs =>
          refine Bool.eq_false_iff.mpr fun hdigit => Bool.eq_false_iff.mp h ?_
          exact isWordPart_of_isDigit hdigit
  | unary _ _ | binary _ _ _ | conditional _ _ _ | function _ _ | call _ _ =>
      cases r <;> rfl

/-- A mark is a token, whatever stands behind it. -/
theorem tokensOf_mark {ch : Char} (r : List Char)
    (h : ch ∈ ['(', ')', '\x7b', '\x7d', ',', ';'] := by decide) :
    tokensOf (ch :: r) = .symbol ch :: tokensOf r := by
  have hmark : isBlank ch = false ∧ isWordPart ch = false ∧ ch ≠ '=' ∧ ch ≠ '!' ∧ ch ≠ '/' := by
    simp only [List.mem_cons, List.not_mem_nil, or_false] at h
    rcases h with rfl | rfl | rfl | rfl | rfl | rfl <;> decide
  obtain ⟨hblank, hword, hequals, hbang, hslash⟩ := hmark
  refine tokensOf_symbol_append hblank hword ?_
  cases r <;> simp [Token.clashes, hequals, hbang, hslash]

theorem tokensOf_unary (op : UnaryOp) {r : List Char} (h : r.head? ≠ some '=') :
    tokensOf (op.text.toList ++ r) = op.token :: tokensOf r := by
  cases op with
  | not =>
      have hr : r.head?.any (Token.symbol '!').clashes = false := by
        cases r <;> simp_all [Token.clashes]
      exact tokensOf_append (t := .symbol '!') (by decide) hr
  | neg =>
      have hr : r.head?.any (Token.symbol '-').clashes = false := by
        cases r <;> simp [Token.clashes]
      exact tokensOf_append (t := .symbol '-') (by decide) hr

theorem tokensOf_binary (op : BinaryOp) (r : List Char) :
    tokensOf (op.text.toList ++ ' ' :: r) = op.token :: tokensOf r := by
  have hlegible : op.token.Legible := by cases op <;> decide
  have htext : op.text = op.token.text := by cases op <;> rfl
  rw [← tokensOf_blank (by decide : isBlank ' ' = true) r, htext]
  exact tokensOf_append hlegible op.token.clashes_blank

theorem tokensOf_keyword (k : Keyword) {r : List Char} (h : r.head?.any isWordPart = false) :
    tokensOf (k.text.toList ++ r) = .keyword k :: tokensOf r :=
  tokensOf_append (t := .keyword k) trivial h

theorem tokensOf_keyword_blank (k : Keyword) (r : List Char) :
    tokensOf (k.text.toList ++ ' ' :: r) = .keyword k :: tokensOf r := by
  rw [tokensOf_keyword k rfl, tokensOf_blank (by decide)]

/-- Items with their commas, up to the parenthesis that closes the list. -/
theorem tokensOf_intercalate {texts : List String} {items : List (List Token)}
    (h : List.Forall₂ Writes texts items) (r : List Char) :
    tokensOf ((", ".intercalate texts).toList ++ ')' :: r) =
      separated items ++ .symbol ')' :: tokensOf r := by
  induction h with
  | nil => exact tokensOf_mark r
  | @cons text item texts items hitem hitems ih =>
      cases hitems with
      | nil =>
          rw [String.intercalate_singleton, hitem _ rfl, tokensOf_mark]
          rfl
      | @cons next nextItem texts items hnext hmore =>
          have hrender : (", ".intercalate (text :: next :: texts)).toList ++ ')' :: r =
              text.toList ++ ',' :: ' ' ::
                ((", ".intercalate (next :: texts)).toList ++ ')' :: r) := by
            simp
          rw [hrender, hitem _ rfl, tokensOf_mark, tokensOf_blank (by decide), ih]
          simp [separated]

theorem forall₂_names {names : List String} (h : ∀ name ∈ names, IsName name) :
    List.Forall₂ Writes names (names.map ([.name ·])) := by
  rw [List.forall₂_map_right_iff, List.forall₂_same]
  exact fun name hname r hr => tokensOf_append (t := .name name) (h name hname) hr

/-- Behind statements stands the brace that closes their block. -/
theorem Writes.block {ss : List Statement} {ts : List Token} (h : Writes (renderStatements ss) ts)
    (r : List Char) : tokensOf ((renderBlock ss).toList ++ r) = braced ts ++ tokensOf r := by
  cases ss with
  | nil =>
      have hclose := h ('\x7d' :: r) rfl
      have hrender : (renderBlock []).toList ++ r = '\x7b' :: '\x7d' :: r := by simp [renderBlock]
      rw [renderStatements, String.toList_empty, List.nil_append, tokensOf_mark] at hclose
      rw [hrender, tokensOf_mark, tokensOf_mark, hclose]
      simp [braced]
  | cons s ss =>
      have hrender : (renderBlock (s :: ss)).toList ++ r =
          '\x7b' :: ' ' :: ((renderStatements (s :: ss)).toList ++ ' ' :: '\x7d' :: r) := by
        simp [renderBlock, renderStatements]
      rw [hrender, tokensOf_mark, tokensOf_blank (by decide), h _ rfl, tokensOf_blank (by decide),
        tokensOf_mark]
      simp [braced]

theorem Expression.exists_render_eq : (e : Expression) → e.Legal →
    ∃ c cs, e.render.toList = c :: cs ∧ c ≠ '='
  | .name text, h => by
      obtain ⟨hstart, -⟩ := h
      rw [render]
      cases htext : text.toList with
      | nil =>
          rw [htext] at hstart
          cases hstart
      | cons c cs =>
          rw [htext] at hstart
          refine ⟨c, cs, rfl, ?_⟩
          rintro rfl
          have hequals : isWordStart '=' = true := hstart
          exact absurd hequals (by decide)
  | .integer value, h => by
      obtain ⟨n, -, htext⟩ := exists_toString_eq h
      obtain ⟨hne, hdigits⟩ := isNumeral_toString n
      obtain ⟨c, cs, hcs⟩ := List.exists_cons_of_ne_nil hne
      refine ⟨c, cs, by rw [render, htext, hcs], ?_⟩
      rintro rfl
      have hequals := List.all_eq_true.mp hdigits '=' (hcs ▸ List.mem_cons_self)
      exact absurd hequals (by decide)
  | .boolean value, _ => by cases value <;> exact ⟨_, _, rfl, by decide⟩
  | .unary _ _, _ | .binary _ _ _, _ => ⟨'(', _, by simp [render]; rfl, by decide⟩
  | .conditional _ _ none, _ | .conditional _ _ (some _), _ =>
      ⟨'i', _, by simp [render]; rfl, by decide⟩
  | .function _ _, _ => ⟨'f', _, by simp [render]; rfl, by decide⟩
  | .call callee args, h => by
      obtain ⟨c, cs, hrender, hc⟩ := callee.exists_render_eq h.1
      exact ⟨c, _, by simp [render, hrender]; rfl, hc⟩

theorem Statement.exists_render_eq (s : Statement) (h : s.Legal) :
    ∃ c cs, s.render.toList = c :: cs := by
  cases s with
  | binding _ _ => exact ⟨'l', _, by simp [render]; rfl⟩
  | returning _ => exact ⟨'r', _, by simp [render]; rfl⟩
  | expression value =>
      obtain ⟨c, cs, hrender, -⟩ := value.exists_render_eq h
      exact ⟨c, cs, hrender⟩

/-- A statement is not lengthened by the statements behind it. -/
theorem any_clashes_renderStatements {s : Statement} {r : List Char}
    (hr : r.head?.any isWordPart = false) : (ss : List Statement) → StatementsLegal ss →
    (∀ next ∈ ss.head?, s.StandsBefore next.render.toList) →
    ((renderStatements ss).toList ++ r).head?.any s.clashes = false
  | [], _, _ => by
      cases s with
      | binding _ _ | returning _ => cases r <;> rfl
      | expression value => exact value.any_clashes hr
  | next :: ss, hl, h => by
      obtain ⟨c, cs, hrender⟩ := next.exists_render_eq hl.1
      have hstands := h next rfl
      rw [hrender] at hstands
      rw [renderStatements, String.toList_append, hrender]
      cases s with
      | binding _ _ | returning _ => rfl
      | expression value =>
          cases value with
          | name _ | boolean _ => exact hstands.elim
          | integer _ => exact hstands.2
          | unary _ _ | binary _ _ _ | conditional _ _ _ | function _ _ | call _ _ => rfl

mutual

theorem Expression.tokensOf_render : (e : Expression) → e.Legal → (∀ n ∈ e.nodes, n.Apart) →
    (r : List Char) → r.head?.any e.clashes = false →
    tokensOf (e.render.toList ++ r) = e.tokens ++ tokensOf r
  | .name text, hl, _, r, hr => by
      rw [Expression.render]
      exact tokensOf_append (t := .name text) hl hr
  | .integer value, hl, _, r, hr => by
      obtain ⟨n, -, htext⟩ := exists_toString_eq hl
      rw [Expression.render, Expression.tokens, Expression.wrap, Expression.bareTokens, htext]
      exact tokensOf_append (t := .numeral (toString n)) (isNumeral_toString n) hr
  | .boolean true, _, _, r, hr => by
      rw [Expression.render]
      exact tokensOf_keyword .trueWord hr
  | .boolean false, _, _, r, hr => by
      rw [Expression.render]
      exact tokensOf_keyword .falseWord hr
  | .unary op operand, hl, ha, r, _ => by
      have hrender : (Expression.unary op operand).render.toList ++ r =
          '(' :: (op.text.toList ++ (operand.render.toList ++ ')' :: r)) := by
        simp [Expression.render]
      -- Of the signs only `!` could become another token, and no rendering begins with `=`.
      have hequals : (operand.render.toList ++ ')' :: r).head? ≠ some '=' := by
        obtain ⟨c, cs, hcs, hc⟩ := operand.exists_render_eq hl
        simpa [hcs] using hc
      obtain ⟨-, ha⟩ := List.forall_mem_cons.mp ha
      rw [hrender, tokensOf_mark, tokensOf_unary op hequals, operand.tokensOf_render hl ha _
        (operand.any_clashes rfl), tokensOf_mark]
      simp [Expression.tokens_unary, parenthesized]
  | .binary left op right, hl, ha, r, _ => by
      have hrender : (Expression.binary left op right).render.toList ++ r =
          '(' :: (left.render.toList ++ ' ' :: (op.text.toList ++ ' ' ::
            (right.render.toList ++ ')' :: r))) := by
        simp [Expression.render]
      obtain ⟨hleft, hright⟩ := List.forall_mem_append.mp (List.forall_mem_cons.mp ha).2
      rw [hrender, tokensOf_mark, left.tokensOf_render hl.1 hleft _ (left.any_clashes rfl),
        tokensOf_blank (by decide), tokensOf_binary,
        right.tokensOf_render hl.2 hright _ (right.any_clashes rfl), tokensOf_mark]
      simp [Expression.tokens_binary, parenthesized]
  | .conditional test yes none, hl, ha, r, _ => by
      have hrender : (Expression.conditional test yes none).render.toList ++ r =
          Keyword.ifWord.text.toList ++ ' ' ::
            (test.render.toList ++ ' ' :: ((renderBlock yes).toList ++ r)) := by
        simp [Expression.render, Keyword.text]
      obtain ⟨htest, hyes⟩ := List.forall_mem_append.mp (List.forall_mem_cons.mp ha).2
      rw [hrender, tokensOf_keyword_blank,
        test.tokensOf_render hl.1 htest _ (test.any_clashes rfl), tokensOf_blank (by decide),
        (writes_renderStatements_of_apart yes hl.2 hyes).block]
      simp [Expression.tokens_ifThen]
  | .conditional test yes (some no), hl, ha, r, _ => by
      have hrender : (Expression.conditional test yes (some no)).render.toList ++ r =
          Keyword.ifWord.text.toList ++ ' ' ::
            (test.render.toList ++ ' ' :: ((renderBlock yes).toList ++ ' ' ::
              (Keyword.elseWord.text.toList ++ ' ' :: ((renderBlock no).toList ++ r)))) := by
        simp [Expression.render, Keyword.text]
      obtain ⟨hthen, hno⟩ := List.forall_mem_append.mp ha
      obtain ⟨htest, hyes⟩ := List.forall_mem_append.mp (List.forall_mem_cons.mp hthen).2
      rw [hrender, tokensOf_keyword_blank,
        test.tokensOf_render hl.1 htest _ (test.any_clashes rfl), tokensOf_blank (by decide),
        (writes_renderStatements_of_apart yes hl.2.1 hyes).block,
        tokensOf_blank (by decide), tokensOf_keyword_blank,
        (writes_renderStatements_of_apart no hl.2.2 hno).block]
      simp [Expression.tokens_ifThenElse]
  | .function params body, hl, ha, r, _ => by
      have hrender : (Expression.function params body).render.toList ++ r =
          Keyword.fnWord.text.toList ++ '(' :: ((", ".intercalate params).toList ++ ')' :: ' ' ::
            ((renderBlock body).toList ++ r)) := by
        simp [Expression.render, Keyword.text]
      rw [hrender, tokensOf_keyword _ rfl, tokensOf_mark,
        tokensOf_intercalate (forall₂_names hl.1), tokensOf_blank (by decide),
        (writes_renderStatements_of_apart body hl.2 (List.forall_mem_cons.mp ha).2).block]
      simp [Expression.tokens_function, parenthesized]
  | .call callee args, hl, ha, r, _ => by
      have hrender : (Expression.call callee args).render.toList ++ r =
          callee.render.toList ++ '(' ::
            ((", ".intercalate (renderEach args)).toList ++ ')' :: r) := by
        simp [Expression.render]
      obtain ⟨hcallee, hargs⟩ := List.forall_mem_append.mp (List.forall_mem_cons.mp ha).2
      rw [hrender, callee.tokensOf_render hl.1 hcallee _ (callee.any_clashes rfl), tokensOf_mark,
        tokensOf_intercalate (writes_renderEach args hl.2 hargs)]
      simp [Expression.tokens_call, parenthesized]

theorem Statement.tokensOf_render : (s : Statement) → s.Legal → (∀ n ∈ s.nodes, n.Apart) →
    (r : List Char) → r.head?.any s.clashes = false →
    tokensOf (s.render.toList ++ r) = s.tokens ++ tokensOf r
  | .binding name value, hl, ha, r, _ => by
      have hrender : (Statement.binding name value).render.toList ++ r =
          Keyword.letWord.text.toList ++ ' ' :: (name.toList ++ ' ' :: '=' :: ' ' ::
            (value.render.toList ++ ';' :: r)) := by
        simp [Statement.render, Keyword.text]
      have hname (cs : List Char) :
          tokensOf (name.toList ++ ' ' :: cs) = .name name :: tokensOf cs := by
        rw [← tokensOf_blank (by decide : isBlank ' ' = true) cs]
        exact tokensOf_append (t := .name name) hl.1 rfl
      have hequals (cs : List Char) : tokensOf ('=' :: ' ' :: cs) = .symbol '=' :: tokensOf cs := by
        rw [tokensOf_symbol_append (by decide) (by decide) rfl, tokensOf_blank (by decide)]
      obtain ⟨-, ha⟩ := List.forall_mem_cons.mp ha
      rw [hrender, tokensOf_keyword_blank, hname, hequals,
        value.tokensOf_render hl.2 ha _ (value.any_clashes rfl), tokensOf_mark]
      simp [Statement.tokens_binding]
  | .returning value, hl, ha, r, _ => by
      have hrender : (Statement.returning value).render.toList ++ r =
          Keyword.returnWord.text.toList ++ ' ' :: (value.render.toList ++ ';' :: r) := by
        simp [Statement.render, Keyword.text]
      obtain ⟨-, ha⟩ := List.forall_mem_cons.mp ha
      rw [hrender, tokensOf_keyword_blank,
        value.tokensOf_render hl ha _ (value.any_clashes rfl), tokensOf_mark]
      simp [Statement.tokens_returning]
  | .expression value, hl, ha, r, hr => by
      rw [Statement.render]
      exact value.tokensOf_render hl (List.forall_mem_cons.mp ha).2 r hr

/-- The statements of a block, of which the block itself is the first node. -/
theorem writes_renderStatements_of_apart : (ss : List Statement) → StatementsLegal ss →
    (∀ n ∈ Node.block ss :: statementNodes ss, n.Apart) →
    Writes (renderStatements ss) (statementsTokens ss)
  | [], _, _ => fun _ _ => rfl
  | s :: ss, hl, ha => by
      intro r hr
      obtain ⟨⟨hstands, hmore⟩, hnodes⟩ := List.forall_mem_cons.mp ha
      obtain ⟨hs, hss⟩ := List.forall_mem_append.mp hnodes
      have hrest := writes_renderStatements_of_apart ss hl.2
        (List.forall_mem_cons.mpr ⟨hmore, hss⟩) r hr
      have hclashes := any_clashes_renderStatements hr ss hl.2 hstands
      rw [renderStatements, String.toList_append, List.append_assoc,
        s.tokensOf_render hl.1 hs _ hclashes, hrest, statementsTokens, List.append_assoc]

theorem writes_renderEach : (es : List Expression) → ExpressionsLegal es →
    (∀ n ∈ expressionNodes es, n.Apart) →
    List.Forall₂ Writes (renderEach es) (argumentTokens es)
  | [], _, _ => .nil
  | e :: es, hl, ha =>
      .cons (fun r hr => e.tokensOf_render hl.1 (List.forall_mem_append.mp ha).1 r
        (e.any_clashes hr)) (writes_renderEach es hl.2 (List.forall_mem_append.mp ha).2)

end

theorem writes_renderStatements (ss : List Statement) (hl : StatementsLegal ss)
    (hp : StatementsPrintable ss) : Writes (renderStatements ss) (statementsTokens ss) := by
  obtain ⟨hapart, hnodes⟩ := (statementsPrintable_iff ss).mp hp
  exact writes_renderStatements_of_apart ss hl
    (List.forall_mem_cons.mpr ⟨hapart, fun n hn => (hnodes n hn).1⟩)

namespace Program

/-- A program that is rendered and read again is the same program. -/
theorem parse_render (p : Program) (hl : p.Legal) (hp : p.Printable) : parse p.render = .ok p := by
  have hwrites := writes_renderStatements p.statements hl hp [] rfl
  have hnil : tokensOf [] = [] := tokensOf_eq_nil rfl
  rw [List.append_nil, hnil, List.append_nil] at hwrites
  exact parse_eq_ok (spells_statements p.statements hl hp) hwrites

/-- The text is `if (!a) { 5return b; }let f = fn(x, y) {};`. -/
theorem parse_render_branch :
    parse (render ⟨[.expression (.conditional (.unary .not (.name "a"))
          [.expression (.integer 5), .returning (.name "b")] none),
        .binding "f" (.function ["x", "y"] [])]⟩) =
      .ok ⟨[.expression (.conditional (.unary .not (.name "a"))
          [.expression (.integer 5), .returning (.name "b")] none),
        .binding "f" (.function ["x", "y"] [])]⟩ := by
  refine parse_render _ ?_ ?_
  · simp only [Legal, StatementsLegal, Statement.Legal, Expression.Legal]
    decide
  · simp [Printable, StatementsPrintable, Statement.Printable, Expression.Printable,
      Expression.isOperation, Statement.StandsBefore, Statement.render]

end Program
end MonkeyLang
