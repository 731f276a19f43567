import MonkeyLang.Parse.Basic
import MonkeyLang.Proofs.Grammar.Tree

/-!
What is built from the pieces of a phrase: the expression that the phrase denotes, or the error of
its first integer that is too large. Pieces are visited in the order of the tokens, so the first
error in the one order is the first in the other.
-/
namespace MonkeyLang

/-- The digits of an integer that is too large. -/
def Token.oversized? : Token → Option String
  | numeral digits => if isOversized digits.toList then some digits else none
  | keyword _ | name _ | equal | notEqual | symbol _ => none

/-- The digits of the first integer among some tokens that is too large. -/
def firstOversized (ts : List Token) : Option String := ts.findSome? Token.oversized?

/-- The value, unless an integer among the tokens is too large. -/
def inRange {α : Type} (ts : List Token) (a : α) : Except ParseError α :=
  match firstOversized ts with
  | some digits => .error (.integerOutOfRange digits)
  | none => .ok a

/-- An integer that fits is the value of its digits. -/
theorem toInt_numeralValue {digits : List Char} (h : isOversized digits = false) :
    (Int64.ofNat (numeralValue digits)).toInt = numeralValue digits := by
  simp only [isOversized, Nat.pow_eq, decide_eq_false_iff_not] at h
  exact Int64.toInt_ofNat_of_lt (by omega)

section InRange

variable {α β : Type}

@[simp] theorem ok_bind (a : α) (f : α → Except ParseError β) : (.ok a >>= f) = f a := rfl

@[simp] theorem ok_map (f : α → β) (a : α) :
    f <$> (.ok a : Except ParseError α) = .ok (f a) := rfl

@[simp] theorem error_map (f : α → β) (e : ParseError) :
    f <$> (.error e : Except ParseError α) = .error e := rfl

theorem inRange_congr {ts us : List Token} (h : firstOversized ts = firstOversized us) (a : α) :
    inRange ts a = inRange us a := by
  rw [inRange, inRange, h]

theorem inRange_of_none {ts : List Token} (h : firstOversized ts = none) (a : α) :
    inRange ts a = .ok a := by
  rw [inRange, h]

theorem inRange_eq_ok_iff {ts : List Token} {a b : α} :
    inRange ts a = .ok b ↔ firstOversized ts = none ∧ a = b := by
  unfold inRange
  cases firstOversized ts <;> simp

theorem inRange_eq_error_iff {ts : List Token} {a : α} {digits : String} :
    inRange ts a = .error (.integerOutOfRange digits) ↔ firstOversized ts = some digits := by
  unfold inRange
  cases firstOversized ts <;> simp

theorem inRange_map (ts : List Token) (a : α) (f : α → β) :
    f <$> inRange ts a = inRange ts (f a) := by
  unfold inRange
  split <;> rfl

theorem inRange_bind (ts us : List Token) (a : α) (f : α → β) :
    (inRange ts a >>= fun x => inRange us (f x)) = inRange (ts ++ us) (f a) := by
  unfold inRange firstOversized
  rw [List.findSome?_append]
  cases ts.findSome? Token.oversized? <;> rfl

theorem inRange_bind_ok (ts : List Token) (a : α) (f : α → β) :
    (inRange ts a >>= fun x => .ok (f x)) = inRange ts (f a) :=
  inRange_map ts a f

/-- Two values in a row, of which the tokens stand in a longer row. -/
theorem inRange_bind_bind {γ δ : Type} {ts us vs : List Token} {a : α} {b : β} {c : γ}
    {f : α → β → Except ParseError δ} {g : γ → Except ParseError δ}
    (h : firstOversized vs = (firstOversized ts).or (firstOversized us)) (hfg : f a b = g c) :
    (inRange ts a >>= fun x => inRange us b >>= fun y => f x y) = inRange vs c >>= g := by
  simp only [inRange, h]
  cases firstOversized ts with
  | some digits => rfl
  | none =>
      cases firstOversized us with
      | some digits => rfl
      | none => exact hfg

end InRange

@[simp] theorem firstOversized_nil : firstOversized [] = none := rfl

@[simp] theorem firstOversized_cons (t : Token) (ts : List Token) :
    firstOversized (t :: ts) = t.oversized?.or (firstOversized ts) := by
  rw [firstOversized, List.findSome?_cons]
  cases t.oversized? <;> rfl

@[simp] theorem firstOversized_append (ts us : List Token) :
    firstOversized (ts ++ us) = (firstOversized ts).or (firstOversized us) :=
  List.findSome?_append

@[simp] theorem BinaryOp.oversized?_token (op : BinaryOp) : op.token.oversized? = none := by
  cases op <;> rfl

@[simp] theorem UnaryOp.oversized?_token (op : UnaryOp) : op.token.oversized? = none := by
  cases op <;> rfl

theorem firstOversized_signs (ops : List UnaryOp) :
    firstOversized (ops.map UnaryOp.token) = none := by
  induction ops with
  | nil => rfl
  | cons op ops ih => simp [ih]

@[simp] theorem firstOversized_parenthesized (ts : List Token) :
    firstOversized (parenthesized ts) = firstOversized ts := by
  simp [parenthesized, Token.oversized?]

@[simp] theorem firstOversized_braced (ts : List Token) :
    firstOversized (braced ts) = firstOversized ts := by
  simp [braced, Token.oversized?]

@[simp] theorem firstOversized_ending (ended : Bool) : firstOversized (ending ended) = none := by
  cases ended <;> simp [ending, Token.oversized?]

theorem firstOversized_separated (items : List (List Token)) :
    firstOversized (separated items) = firstOversized items.flatten := by
  induction items with
  | nil => rfl
  | cons item items ih =>
      cases items with
      | nil => simp [separated]
      | cons next items => simp [separated, ih, Token.oversized?]

theorem firstOversized_names (names : List String) :
    firstOversized (separated (names.map ([.name ·]))) = none := by
  rw [firstOversized_separated]
  induction names with
  | nil => rfl
  | cons name names ih => simpa [Token.oversized?] using ih

namespace Piece

@[simp] theorem outcome_enter (role : Role) (p : Piece) : (p.enter role).outcome = .ok () := rfl

theorem outcome_namePiece (name : String) :
    (namePiece name).toIdentifier.outcome = .ok name := by
  simp [toIdentifier, namePiece, rule, text]

theorem outcome_toIdentifiers (names : List String) :
    (toIdentifiers (names.map namePiece)).outcome = .ok names := by
  induction names with
  | nil => rfl
  | cons name names ih => simp [toIdentifiers, outcome_namePiece, ih]

theorem outcome_binaryPiece (op : BinaryOp) : op.piece.toBinaryOp.outcome = .ok op := by
  simp [toBinaryOp, BinaryOp.piece, text, BinaryOp.ofText?_text]

theorem outcome_unaryPiece (op : UnaryOp) : op.piece.toUnaryOp.outcome = .ok op := by
  simp [toUnaryOp, UnaryOp.piece, text, UnaryOp.ofText?_text]

theorem outcome_integer (digits : String) (inner : List Piece) :
    (mk .integer digits.toList inner).toExpression.outcome =
      inRange [.numeral digits] (.integer (Int64.ofNat (numeralValue digits.toList))) := by
  rw [toExpression]
  simp only [rule, Building.outcome_bind, outcome_enter, ok_bind, Building.outcome_map, toInteger,
    text, String.ofList_toList]
  by_cases h : isOversized digits.toList <;> simp [h, inRange, Token.oversized?]

theorem outcome_boolean (value : Bool) :
    ((Keyword.ofBool value).piece .boolean).toExpression.outcome = .ok (.boolean value) := by
  rw [toExpression]
  cases value <;> simp [rule, toBoolean, text, Keyword.piece, Keyword.ofBool, Keyword.text]

theorem outcome_name (name : String) :
    (namePiece name).toExpression.outcome = .ok (.name name) := by
  rw [toExpression]
  simp [rule, namePiece, toIdentifier, text]

theorem outcome_expression (p : Piece) (text : List Char) (ps : List Piece) :
    (mk .expression text (p :: ps)).toExpression.outcome = p.toExpression.outcome := by
  rw [toExpression]
  simp [rule, inner, firstToExpression]

theorem outcome_level (l : Level) (text : List Char) (ps : List Piece) :
    (mk l.rule text ps).toExpression.outcome = (toOperation ps).outcome := by
  rw [toExpression]
  cases l <;> simp [rule, inner, Level.rule]

theorem outcome_call (text : List Char) (ps : List Piece) :
    (mk .call text ps).toExpression.outcome = (toCall ps).outcome := by
  rw [toExpression]
  simp [rule, inner]

theorem outcome_toOperands (left : Expression) (op : BinaryOp) (p : Piece) (ps : List Piece)
    {ts : List Token} {right : Expression} (h : p.toExpression.outcome = inRange ts right) :
    (toOperands left (op.piece :: p :: ps)).outcome =
      inRange ts right >>= fun e => (toOperands (.binary left op e) ps).outcome := by
  rw [toOperands]
  simp [outcome_binaryPiece, h]

theorem outcome_toCalls (callee : Expression) (text : List Char) (qs ps : List Piece)
    {ts : List Token} {args : List Expression}
    (h : (toExpressions qs).outcome = inRange ts args) :
    (toCalls callee (mk .arguments text qs :: ps)).outcome =
      inRange ts args >>= fun es => (toCalls (.call callee es) ps).outcome := by
  rw [toCalls]
  simp [inner, h]

theorem outcome_toSigned (ops before : List UnaryOp) (p : Piece)
    (hp : p.rule ≠ .unaryOperator) :
    (toSigned before none (ops.map UnaryOp.piece ++ [p])).outcome =
      (fun e => (before ++ ops).foldr Expression.unary e) <$> p.toExpression.outcome := by
  induction ops generalizing before with
  | nil =>
      simp only [List.map_nil, List.nil_append, toSigned, hp, ite_false, Building.outcome_bind,
        Building.outcome_pure, List.append_nil]
      cases p.toExpression.outcome <;> rfl
  | cons op ops ih =>
      rw [List.map_cons, List.cons_append, toSigned]
      have hrule : op.piece.rule = .unaryOperator := rfl
      simp only [hrule, ite_true, Building.outcome_bind, outcome_unaryPiece, ok_bind, ih,
        List.append_assoc, List.singleton_append]

theorem outcome_unary (ops : List UnaryOp) (text : List Char) (p : Piece)
    (hp : p.rule ≠ .unaryOperator) :
    (mk .unary text (ops.map UnaryOp.piece ++ [p])).toExpression.outcome =
      (fun e => ops.foldr Expression.unary e) <$> p.toExpression.outcome := by
  rw [toExpression]
  simp [rule, inner, outcome_toSigned ops [] p hp]

theorem outcome_ifThen (text : List Char) (test yes : Piece) (htest : test.isKeyword = false)
    (hyes : yes.isKeyword = false) :
    (mk .ifExpression text [Keyword.ifWord.piece .ifKeyword, test, yes]).toExpression.outcome =
      test.toExpression.outcome >>= fun e =>
        yes.toBlock.outcome >>= fun ss => .ok (.conditional e ss none) := by
  have hkeyword : (Keyword.ifWord.piece .ifKeyword).isKeyword = true := rfl
  rw [toExpression]
  simp [rule, significant, inner, hkeyword, htest, hyes, toConditional, toBranches]

theorem outcome_ifThenElse (text : List Char) (test yes no : Piece)
    (htest : test.isKeyword = false) (hyes : yes.isKeyword = false) (hno : no.isKeyword = false) :
    (mk .ifExpression text [Keyword.ifWord.piece .ifKeyword, test, yes,
        Keyword.elseWord.piece .elseKeyword, no]).toExpression.outcome =
      test.toExpression.outcome >>= fun e =>
        yes.toBlock.outcome >>= fun ss =>
          no.toBlock.outcome >>= fun rs => .ok (.conditional e ss (some rs)) := by
  have hif : (Keyword.ifWord.piece .ifKeyword).isKeyword = true := rfl
  have helse : (Keyword.elseWord.piece .elseKeyword).isKeyword = true := rfl
  rw [toExpression]
  simp [rule, significant, inner, hif, helse, htest, hyes, hno, toConditional, toBranches]

theorem outcome_function (text names : List Char) (params : List String) (body : Piece)
    (hbody : body.isKeyword = false) :
    (mk .functionLiteral text [Keyword.fnWord.piece .fnKeyword,
        mk .parameters names (params.map namePiece), body]).toExpression.outcome =
      body.toBlock.outcome >>= fun ss => .ok (.function params ss) := by
  have hfn : (Keyword.fnWord.piece .fnKeyword).isKeyword = true := rfl
  have hparams : (mk .parameters names (params.map namePiece)).isKeyword = false := rfl
  rw [toExpression]
  simp [rule, significant, inner, hfn, hparams, hbody, toFunction, outcome_toIdentifiers,
    firstToBlock]

theorem outcome_block (text : List Char) (ps : List Piece) :
    (mk .block text ps).toBlock.outcome = (toStatements ps).outcome := by
  rw [toBlock]
  simp [rule, inner]

theorem outcome_binding (name : String) (text : List Char) (value : Piece)
    (hvalue : value.isKeyword = false) :
    (mk .letStatement text
        [Keyword.letWord.piece .letKeyword, namePiece name, value]).toStatement.outcome =
      value.toExpression.outcome >>= fun e => .ok (.binding name e) := by
  have hlet : (Keyword.letWord.piece .letKeyword).isKeyword = true := rfl
  have hname : (namePiece name).isKeyword = false := rfl
  rw [toStatement]
  simp [rule, significant, inner, hlet, hname, hvalue, toBinding, outcome_namePiece,
    firstToExpression]

theorem outcome_returning (text : List Char) (value : Piece) (hvalue : value.isKeyword = false) :
    (mk .returnStatement text
        [Keyword.returnWord.piece .returnKeyword, value]).toStatement.outcome =
      Statement.returning <$> value.toExpression.outcome := by
  have hreturn : (Keyword.returnWord.piece .returnKeyword).isKeyword = true := rfl
  rw [toStatement]
  simp only [rule, significant, inner, hreturn, hvalue, firstToExpression, List.filter_cons,
    List.filter_nil, Bool.not_true, Bool.not_false, Bool.false_eq_true, ite_true, ite_false,
    Building.outcome_bind, Building.outcome_map, Building.outcome_note, Building.outcome_pure,
    outcome_enter, ok_bind]
  cases value.toExpression.outcome <;> rfl

theorem outcome_evaluation (text : List Char) (value : Piece) :
    (mk .expressionStatement text [value]).toStatement.outcome =
      Statement.expression <$> value.toExpression.outcome := by
  rw [toStatement]
  simp only [rule, inner, firstToExpression, Building.outcome_bind, Building.outcome_map,
    Building.outcome_note, Building.outcome_pure, outcome_enter, ok_bind]
  cases value.toExpression.outcome <;> rfl

end Piece

/-- What is built from pieces that stand for a part. The operands of a level and the calls may go
on with other pieces. -/
def Builds : Part → List Piece → Prop
  | .phrase _ p, ps => ∃ x, ps = [x] ∧ x.isKeyword = false ∧ x.rule ≠ .unaryOperator ∧
      x.toExpression.outcome = inRange p.tokens p.toExpression
  | .operands _ p, ps => ∀ qs, (Piece.toOperation (ps ++ qs)).outcome =
      inRange p.tokens p.toExpression >>= fun e => (Piece.toOperands e qs).outcome
  | .calls p, ps => ∀ qs, (Piece.toCall (ps ++ qs)).outcome =
      inRange p.tokens p.toExpression >>= fun e => (Piece.toCalls e qs).outcome
  | .items args, ps => (Piece.toExpressions ps).outcome =
      inRange (phraseTokens args).flatten (toExpressions args)
  | .block cs, ps => ∃ x, ps = [x] ∧ x.isKeyword = false ∧
      x.toBlock.outcome = inRange (clauseTokens cs) (toStatements cs)
  | .clause c, ps => ∃ x, ps = [x] ∧ x.rule ≠ .endOfInput ∧
      x.toStatement.outcome = inRange c.tokens c.toStatement
  | .clauses cs, ps => ∀ qs, (Piece.toStatements (ps ++ qs)).outcome =
      inRange (clauseTokens cs) (toStatements cs) >>= fun ss =>
        (ss ++ ·) <$> (Piece.toStatements qs).outcome

theorem Tree.builds {part : Part} {ps : List Piece} (h : Tree part ps) : Builds part ps := by
  induction h with
  | name text =>
      refine ⟨_, rfl, rfl, by simp [Piece.rule, namePiece], ?_⟩
      rw [Piece.outcome_name, inRange_of_none (by simp [Phrase.tokens, Token.oversized?])]
      rfl
  | numeral digits =>
      exact ⟨_, rfl, rfl, by simp [Piece.rule], Piece.outcome_integer digits []⟩
  | boolean value =>
      refine ⟨_, rfl, rfl, by simp [Piece.rule, Keyword.piece], ?_⟩
      rw [Piece.outcome_boolean, inRange_of_none (by simp [Phrase.tokens, Token.oversized?])]
      rfl
  | grouped inner ih =>
      obtain ⟨x, rfl, hk, hr, hx⟩ := ih
      exact ⟨x, rfl, hk, hr, hx.trans (inRange_congr (by simp [Phrase.tokens]) _)⟩
  | function names htext body ih =>
      obtain ⟨x, rfl, hk, hx⟩ := ih
      refine ⟨_, rfl, rfl, by simp [Piece.rule], ?_⟩
      rw [Piece.outcome_function _ _ _ _ hk, hx, inRange_bind_ok]
      refine inRange_congr ?_ _
      simp [Phrase.tokens, Token.oversized?, firstOversized_names]
  | ifThen htext test yes ihp ihcs =>
      obtain ⟨x, rfl, hk, -, hx⟩ := ihp
      obtain ⟨y, rfl, hk', hy⟩ := ihcs
      refine ⟨_, rfl, rfl, by simp [Piece.rule], ?_⟩
      rw [List.singleton_append, Piece.outcome_ifThen _ _ _ hk hk', hx, hy]
      simp only [inRange_bind_ok, inRange_bind]
      refine inRange_congr ?_ _
      simp [Phrase.tokens, Token.oversized?]
  | ifThenElse htext test yes no ihp ihcs ihds =>
      obtain ⟨x, rfl, hk, -, hx⟩ := ihp
      obtain ⟨y, rfl, hk', hy⟩ := ihcs
      obtain ⟨z, rfl, hk'', hz⟩ := ihds
      refine ⟨_, rfl, rfl, by simp [Piece.rule], ?_⟩
      rw [List.singleton_append, List.singleton_append,
        Piece.outcome_ifThenElse _ _ _ _ hk hk' hk'', hx, hy, hz]
      simp only [inRange_bind_ok, inRange_bind]
      refine inRange_congr ?_ _
      simp [Phrase.tokens, Token.oversized?]
  | callee first ih =>
      obtain ⟨x, rfl, -, -, hx⟩ := ih
      intro qs
      simp [Piece.toCall, hx]
  | call text callee list ihp ihargs =>
      intro rs
      have hcalls (e : Expression) := Piece.outcome_toCalls e text _ rs ihargs
      rw [List.append_assoc, List.singleton_append, ihp]
      simp only [hcalls]
      refine inRange_bind_bind ?_ rfl
      simp [Phrase.tokens, firstOversized_separated]
  | called htext calls ih =>
      refine ⟨_, rfl, rfl, by simp [Piece.rule], ?_⟩
      have hcall := ih []
      rw [List.append_nil] at hcall
      rw [Piece.outcome_call, hcall]
      simp only [Piece.toCalls, Building.outcome_pure]
      exact inRange_bind_ok _ _ id
  | signed ops htext operand ih =>
      obtain ⟨x, rfl, -, hr, hx⟩ := ih
      refine ⟨_, rfl, rfl, by simp [Piece.rule], ?_⟩
      rw [Piece.outcome_unary ops _ x hr, hx, inRange_map, Phrase.toExpression_signed]
      refine inRange_congr ?_ _
      simp [Phrase.tokens_signed, firstOversized_signs]
  | operand first ih =>
      obtain ⟨x, rfl, -, -, hx⟩ := ih
      intro qs
      simp [Piece.toOperation, hx]
  | @operation p q op ps qs left right ihp ihq =>
      obtain ⟨x, rfl, -, -, hx⟩ := ihq
      intro rs
      have hoperands (e : Expression) := Piece.outcome_toOperands e op x rs hx
      rw [List.append_assoc, List.cons_append, List.singleton_append, ihp]
      simp only [hoperands]
      refine inRange_bind_bind ?_ rfl
      simp [Phrase.tokens]
  | @level l p text ps htext operands ih =>
      have hoperation := ih []
      rw [List.append_nil] at hoperation
      refine ⟨_, rfl, by cases l <;> rfl, by cases l <;> simp [Piece.rule, Level.rule], ?_⟩
      rw [Piece.outcome_level, hoperation]
      simp only [Piece.toOperands, Building.outcome_pure]
      exact inRange_bind_ok _ _ id
  | expression htext inner ih =>
      obtain ⟨x, rfl, -, -, hx⟩ := ih
      exact ⟨_, rfl, rfl, by simp [Piece.rule], (Piece.outcome_expression x _ []).trans hx⟩
  | noItem =>
      rw [Builds, Piece.toExpressions]
      rfl
  | item first more ihp ihps =>
      obtain ⟨x, rfl, -, -, hx⟩ := ihp
      rw [Builds] at ihps ⊢
      rw [List.singleton_append, Piece.toExpressions]
      simp only [Building.outcome_bind, Building.outcome_pure, hx, ihps, inRange_bind_ok,
        inRange_bind]
      rfl
  | block text body ih =>
      have hbody := ih []
      rw [List.append_nil] at hbody
      refine ⟨_, rfl, rfl, ?_⟩
      rw [Piece.outcome_block, hbody]
      simp only [Piece.toStatements, Building.outcome_pure, ok_map, List.append_nil]
      exact inRange_bind_ok _ _ id
  | binding htext value ih =>
      obtain ⟨x, rfl, hk, -, hx⟩ := ih
      refine ⟨_, rfl, by simp [Piece.rule], ?_⟩
      rw [Piece.outcome_binding _ _ _ hk, hx, inRange_bind_ok]
      exact inRange_congr (by simp [Clause.tokens, Token.oversized?]) _
  | returning htext value ih =>
      obtain ⟨x, rfl, hk, -, hx⟩ := ih
      refine ⟨_, rfl, by simp [Piece.rule], ?_⟩
      rw [Piece.outcome_returning _ _ hk, hx, inRange_map]
      exact inRange_congr (by simp [Clause.tokens, Token.oversized?]) _
  | evaluation htext value ih =>
      obtain ⟨x, rfl, -, -, hx⟩ := ih
      refine ⟨_, rfl, by simp [Piece.rule], ?_⟩
      rw [Piece.outcome_evaluation, hx, inRange_map]
      exact inRange_congr (by simp [Clause.tokens]) _
  | noClause =>
      intro qs
      rw [List.nil_append]
      change _ = ([] ++ ·) <$> (Piece.toStatements qs).outcome
      cases (Piece.toStatements qs).outcome <;> rfl
  | clause first more ihc ihcs =>
      obtain ⟨x, rfl, hr, hx⟩ := ihc
      intro qs
      rw [List.append_assoc, List.singleton_append, Piece.toStatements, if_neg hr]
      simp only [Building.outcome_bind, Building.outcome_map, Building.outcome_pure, hx, ihcs qs,
        inRange_map, bind_assoc]
      refine inRange_bind_bind (firstOversized_append _ _) ?_
      cases (Piece.toStatements qs).outcome <;> rfl

end MonkeyLang
