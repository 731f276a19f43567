import MonkeyLang.Proofs.Journal.Progress

/-!
The journal as a mirror of the text. Building from some pieces enters their statements and integers
one by one and completes what it has opened, or it stops at the first integer that is too large and
leaves the statements around it open. Both are shown rule by rule, as what is built from two rows of
pieces one after the other enters the landmarks of both.
-/
namespace MonkeyLang

open Piece

/-- The entries follow some landmarks to their end, and none of these is too large. -/
structure Covers (around : List Piece) (es : List Entry) (ms : List Landmark) : Prop where
  fits : ms.find? Landmark.isOversized = none
  run (ahead : List Landmark) : Runs es ⟨ms ++ ahead, around⟩ ⟨ahead, around⟩

/-- The entries follow some landmarks up to the first integer that is too large. -/
structure StopsAt (around : List Piece) (es : List Entry) (ms : List Landmark) (m : Landmark) :
    Prop where
  first : ms.find? Landmark.isOversized = some m
  last : ∃ before, es = before ++ [.entered .integer .integer m.piece.text]
  run : ∃ rest, ∀ ahead, Runs es ⟨ms ++ ahead, around⟩ ⟨rest ++ ahead, m.around⟩

section Rows

variable {around : List Piece} {es fs : List Entry} {ms ns : List Landmark} {m : Landmark}

theorem covers_nil : Covers around [] [] := ⟨rfl, fun ahead => .nil ⟨ahead, around⟩⟩

theorem Covers.append (h : Covers around es ms) (h' : Covers around fs ns) :
    Covers around (es ++ fs) (ms ++ ns) where
  fits := by rw [List.find?_append, h.fits, h'.fits]; rfl
  run ahead := by
    rw [List.append_assoc]
    exact (h.run _).append (h'.run ahead)

theorem Covers.stopsAt (h : Covers around es ms) (h' : StopsAt around fs ns m) :
    StopsAt around (es ++ fs) (ms ++ ns) m where
  first := by rw [List.find?_append, h.fits, h'.first]; rfl
  last := by
    obtain ⟨before, rfl⟩ := h'.last
    exact ⟨es ++ before, (List.append_assoc ..).symm⟩
  run := by
    obtain ⟨rest, hrest⟩ := h'.run
    refine ⟨rest, fun ahead => ?_⟩
    rw [List.append_assoc]
    exact (h.run _).append (hrest ahead)

theorem StopsAt.append (h : StopsAt around es ms m) (ns : List Landmark) :
    StopsAt around es (ms ++ ns) m where
  first := by rw [List.find?_append, h.first]; rfl
  last := h.last
  run := by
    obtain ⟨rest, hrest⟩ := h.run
    refine ⟨rest ++ ns, fun ahead => ?_⟩
    rw [List.append_assoc, List.append_assoc]
    exact hrest (ns ++ ahead)

/-- A line that is not about a landmark. -/
theorem covers_entered {role : Role} (hrole : role ≠ .statement ∧ role ≠ .integer) (p : Piece) :
    Covers around [.entered role p.rule p.text] [] :=
  ⟨rfl, fun _ => (Entry.Moves.passes hrole).runs⟩

theorem not_isOversized_of_statement {p : Piece} (hrule : p.rule.isStatement = true) :
    Landmark.isOversized ⟨around, p⟩ = false := by
  have hinteger : p.rule ≠ .integer := by
    intro h
    rw [h] at hrule
    cases hrule
  rw [Landmark.isOversized, decide_eq_false hinteger, Bool.false_and]

/-- The line that opens a statement, before what is inside the statement. -/
theorem StopsAt.opened {p : Piece} (hrule : p.rule.isStatement = true)
    (h : StopsAt (p :: around) es ms m) :
    StopsAt around (.entered .statement p.rule p.text :: es) (⟨around, p⟩ :: ms) m where
  first := by rw [List.find?_cons, not_isOversized_of_statement hrule, h.first]
  last := by
    obtain ⟨before, rfl⟩ := h.last
    exact ⟨_ :: before, rfl⟩
  run := by
    obtain ⟨rest, hrest⟩ := h.run
    exact ⟨rest, fun ahead => .cons (.opens hrule) (hrest ahead)⟩

theorem Covers.closed {p : Piece} {s : Statement} (hrule : p.rule.isStatement = true)
    (hs : p.toStatement.outcome = .ok s) (h : Covers (p :: around) es ms) :
    Covers around (.entered .statement p.rule p.text :: (es ++ [.completed s]))
      (⟨around, p⟩ :: ms) where
  fits := by rw [List.find?_cons, not_isOversized_of_statement hrule, h.fits]
  run ahead := .cons (.opens hrule) ((h.run ahead).append (Entry.Moves.closes hs).runs)

end Rows

namespace Building

variable {α β : Type} {ps qs : List Piece}

/-- What is built from some pieces, and how the journal follows them. -/
structure Mirrors (b : Building α) (ps : List Piece) : Prop where
  finishes {a : α} (h : b.outcome = .ok a) (around : List Piece) :
    Covers around b.entries (landmarksOf around ps)
  stops {e : ParseError} (h : b.outcome = .error e) (around : List Piece) :
    ∃ m, e = .integerOutOfRange (String.ofList m.piece.text) ∧
      StopsAt around b.entries (landmarksOf around ps) m

theorem entries_bind_of_error {b : Building α} {e : ParseError} (h : b.outcome = .error e)
    (f : α → Building β) : (b >>= f).entries = b.entries := by
  obtain ⟨outcome, entries⟩ := b
  cases h
  rfl

theorem mirrors_pure (a : α) : (pure a : Building α).Mirrors [] where
  finishes _ _ := covers_nil
  stops h _ := nomatch h

theorem Mirrors.congr {b : Building α} (h : b.Mirrors ps)
    (heq : ∀ around, landmarksOf around ps = landmarksOf around qs) : b.Mirrors qs where
  finishes ha around := heq around ▸ h.finishes ha around
  stops he around := heq around ▸ h.stops he around

theorem Mirrors.bind {b : Building α} {f : α → Building β} (h : b.Mirrors ps)
    (hf : ∀ a, (f a).Mirrors qs) : (b >>= f).Mirrors (ps ++ qs) := by
  constructor
  · intro y hy around
    obtain ⟨a, ha, hfa⟩ := exists_of_bind hy
    rw [entries_bind ha, landmarksOf_append]
    exact (h.finishes ha around).append ((hf a).finishes hfa around)
  · intro e he around
    rw [landmarksOf_append]
    rw [outcome_bind] at he
    cases hb : b.outcome with
    | error e' =>
        rw [hb] at he
        cases he
        obtain ⟨m, rfl, hm⟩ := h.stops hb around
        rw [entries_bind_of_error hb]
        exact ⟨m, rfl, hm.append _⟩
    | ok a =>
        rw [hb] at he
        obtain ⟨m, rfl, hm⟩ := (hf a).stops he around
        rw [entries_bind hb]
        exact ⟨m, rfl, (h.finishes hb around).stopsAt hm⟩

theorem Mirrors.map {b : Building α} (f : α → β) (h : b.Mirrors ps) : (f <$> b).Mirrors ps := by
  have hbind : (b >>= pure ∘ f).Mirrors (ps ++ []) := h.bind fun a => mirrors_pure (f a)
  rwa [List.append_nil] at hbind

theorem mirrors_enter {role : Role} (hrole : role ≠ .statement ∧ role ≠ .integer) (p : Piece) :
    (p.enter role).Mirrors [] where
  finishes _ _ := covers_entered hrole p
  stops h _ := nomatch h

/-- A piece that is not a landmark is entered, and then something is built from what is inside. -/
theorem Mirrors.within {role : Role} {p : Piece} {b : Building α} (h : b.Mirrors p.inner)
    (hrole : role ≠ .statement ∧ role ≠ .integer := by decide)
    (hstatement : p.rule.isStatement = false := by rfl)
    (hinteger : p.rule ≠ .integer := by rintro ⟨⟩) :
    (p.enter role >>= fun _ => b).Mirrors [p] := by
  refine ((mirrors_enter hrole p).bind fun _ => h).congr fun around => ?_
  rw [List.nil_append, landmarksOf_cons, landmarks_of_other around hstatement hinteger,
    landmarksOf_nil, List.append_nil]

end Building

namespace Piece

open Building

theorem mirrors_identifier (name : String) :
    (namePiece name).toIdentifier.Mirrors [namePiece name] :=
  Mirrors.within (mirrors_pure _)

theorem mirrors_identifiers (names : List String) :
    (toIdentifiers (names.map namePiece)).Mirrors (names.map namePiece) := by
  induction names with
  | nil => exact mirrors_pure []
  | cons name names ih =>
      exact (mirrors_identifier name).bind fun _ => (ih.bind fun _ => mirrors_pure _).congr (by simp)

theorem mirrors_binaryOp (op : BinaryOp) : op.piece.toBinaryOp.Mirrors [op.piece] := by
  have hop : BinaryOp.ofText? op.piece.text = some op := op.ofText?_text
  rw [toBinaryOp]
  simp only [hop]
  exact Mirrors.within (mirrors_pure op) (by decide) (by cases op <;> rfl)
    (by cases op <;> rintro ⟨⟩)

theorem mirrors_unaryOp (op : UnaryOp) : op.piece.toUnaryOp.Mirrors [op.piece] := by
  have hop : UnaryOp.ofText? op.piece.text = some op := op.ofText?_text
  rw [toUnaryOp]
  simp only [hop]
  exact Mirrors.within (mirrors_pure op)

theorem mirrors_name (name : String) : (namePiece name).toExpression.Mirrors [namePiece name] := by
  rw [toExpression]
  exact (mirrors_enter (by decide) _).bind fun _ => (mirrors_identifier name).map _

theorem mirrors_boolean (value : Bool) :
    ((Keyword.ofBool value).piece .boolean).toExpression.Mirrors
      [(Keyword.ofBool value).piece .boolean] := by
  have hvalue : ((Keyword.ofBool value).piece .boolean).toBoolean.Mirrors
      [(Keyword.ofBool value).piece .boolean] := by
    refine Mirrors.within ?_
    cases value <;> exact mirrors_pure _
  rw [toExpression]
  exact (mirrors_enter (by decide) _).bind fun _ => hvalue.map _

theorem mirrors_toInteger (digits : List Char) :
    (mk .integer digits []).toInteger.Mirrors [mk .integer digits []] := by
  have hmeets (around : List Piece) (ahead : List Landmark) :
      Runs [.entered .integer .integer digits]
        ⟨⟨around, mk .integer digits []⟩ :: ahead, around⟩ ⟨ahead, around⟩ :=
    (Entry.Moves.meets (p := mk .integer digits []) rfl).runs
  rw [toInteger]
  cases h : isOversized (mk .integer digits []).text with
  | true =>
      constructor
      · intro a ha
        cases ha
      · intro e he around
        cases he
        have hlarge : Landmark.isOversized ⟨around, mk .integer digits []⟩ = true := h
        exact ⟨⟨around, mk .integer digits []⟩, rfl, List.find?_cons_of_pos hlarge, ⟨[], rfl⟩, [],
          hmeets around⟩
  | false =>
      constructor
      · intro a ha around
        have hfits : Landmark.isOversized ⟨around, mk .integer digits []⟩ = false := h
        exact ⟨List.find?_cons_of_neg (by rw [hfits]; decide), hmeets around⟩
      · intro e he
        cases he

theorem mirrors_integer (digits : String) :
    (mk .integer digits.toList []).toExpression.Mirrors [mk .integer digits.toList []] := by
  rw [toExpression]
  exact (mirrors_enter (by decide) _).bind fun _ => (mirrors_toInteger _).map _

/-- A statement is opened, and completed when it is built. -/
theorem mirrors_statement {p : Piece} {b : Building Statement} (hrule : p.rule.isStatement = true)
    (hp : p.toStatement = p.enter .statement >>= fun _ => b >>= fun s =>
      note (.completed s) >>= fun _ => pure s) (hb : b.Mirrors p.inner) :
    p.toStatement.Mirrors [p] := by
  have hmarks (around : List Piece) :
      landmarksOf around [p] = ⟨around, p⟩ :: landmarksOf (p :: around) p.inner := by
    rw [landmarksOf_cons, landmarks_of_statement around hrule, landmarksOf_nil, List.append_nil]
  constructor
  · intro s hs around
    have hdone := hs
    rw [hp] at hs
    obtain ⟨_, hentered, hs⟩ := exists_of_bind hs
    obtain ⟨s', hb', hs'⟩ := exists_of_bind hs
    cases hs'
    have hentries : p.toStatement.entries =
        .entered .statement p.rule p.text :: (b.entries ++ [.completed s]) := by
      rw [hp, entries_bind hentered, entries_bind hb']
      rfl
    rw [hentries, hmarks]
    exact (hb.finishes hb' (p :: around)).closed hrule hdone
  · intro e he around
    cases hb' : b.outcome with
    | error e' =>
        have hentries : p.toStatement.entries = .entered .statement p.rule p.text :: b.entries := by
          rw [hp, entries_bind (a := ()) rfl, entries_bind_of_error hb']
          rfl
        rw [hp, outcome_bind, outcome_enter, ok_bind, outcome_bind, hb'] at he
        cases he
        obtain ⟨m, rfl, hm⟩ := hb.stops hb' (p :: around)
        rw [hentries, hmarks]
        exact ⟨m, rfl, hm.opened hrule⟩
    | ok s =>
        rw [hp, outcome_bind, outcome_enter, ok_bind, outcome_bind, hb'] at he
        cases he

theorem mirrors_signed (ops before : List UnaryOp) {p : Piece} (hrule : p.rule ≠ .unaryOperator)
    (hp : p.toExpression.Mirrors [p]) :
    (toSigned before none (ops.map UnaryOp.piece ++ [p])).Mirrors
      (ops.map UnaryOp.piece ++ [p]) := by
  induction ops generalizing before with
  | nil =>
      rw [List.map_nil, List.nil_append, toSigned, if_neg hrule]
      refine hp.bind fun e => ?_
      rw [toSigned]
      exact mirrors_pure _
  | cons op ops ih =>
      have hop : op.piece.rule = .unaryOperator := rfl
      rw [List.map_cons, List.cons_append, toSigned, if_pos hop]
      exact (mirrors_unaryOp op).bind fun _ => ih _

section Forms

variable {x y z : Piece}

theorem mirrors_first (hx : x.toExpression.Mirrors [x]) : (firstToExpression [x]).Mirrors [x] := by
  rwa [firstToExpression]

theorem mirrors_function (text names : List Char) (params : List String)
    (hk : x.isKeyword = false) (hx : x.toBlock.Mirrors [x]) :
    (mk .functionLiteral text [Keyword.fnWord.piece .fnKeyword,
      mk .parameters names (params.map namePiece), x]).toExpression.Mirrors
        [mk .functionLiteral text [Keyword.fnWord.piece .fnKeyword,
          mk .parameters names (params.map namePiece), x]] := by
  have hfn : (Keyword.fnWord.piece .fnKeyword).isKeyword = true := rfl
  have hparams : (mk .parameters names (params.map namePiece)).isKeyword = false := rfl
  have hbody : (toFunction [mk .parameters names (params.map namePiece), x]).Mirrors
      (params.map namePiece ++ [x]) := by
    rw [toFunction, firstToBlock]
    exact (mirrors_identifiers params).bind fun _ => Mirrors.map _ hx
  rw [toExpression]
  refine Mirrors.within (b := toFunction _) ?_
  simp only [significant, inner, List.filter_cons, hfn, hparams, hk]
  exact hbody.congr fun around => by simp [landmarks, Rule.isStatement, Keyword.piece]

theorem mirrors_ifThen (text : List Char) (hk : x.isKeyword = false) (hk' : y.isKeyword = false)
    (hx : x.toExpression.Mirrors [x]) (hy : y.toBlock.Mirrors [y]) :
    (mk .ifExpression text [Keyword.ifWord.piece .ifKeyword, x, y]).toExpression.Mirrors
      [mk .ifExpression text [Keyword.ifWord.piece .ifKeyword, x, y]] := by
  have hif : (Keyword.ifWord.piece .ifKeyword).isKeyword = true := rfl
  have hforms : (toConditional [x, y]).Mirrors ([x] ++ [y]) := by
    simp only [toConditional, toBranches]
    exact hx.bind fun _ => Mirrors.map _ hy
  rw [toExpression]
  refine Mirrors.within (b := toConditional _) ?_
  simp only [significant, inner, List.filter_cons, hif, hk, hk']
  exact hforms.congr fun around => by simp [landmarks, Rule.isStatement, Keyword.piece]

theorem mirrors_ifThenElse (text : List Char) (hk : x.isKeyword = false)
    (hk' : y.isKeyword = false) (hk'' : z.isKeyword = false) (hx : x.toExpression.Mirrors [x])
    (hy : y.toBlock.Mirrors [y]) (hz : z.toBlock.Mirrors [z]) :
    (mk .ifExpression text [Keyword.ifWord.piece .ifKeyword, x, y,
      Keyword.elseWord.piece .elseKeyword, z]).toExpression.Mirrors
        [mk .ifExpression text [Keyword.ifWord.piece .ifKeyword, x, y,
          Keyword.elseWord.piece .elseKeyword, z]] := by
  have hif : (Keyword.ifWord.piece .ifKeyword).isKeyword = true := rfl
  have helse : (Keyword.elseWord.piece .elseKeyword).isKeyword = true := rfl
  have hforms : (toConditional [x, y, z]).Mirrors ([x] ++ ([y] ++ [z])) := by
    simp only [toConditional, toBranches]
    exact hx.bind fun _ => hy.bind fun _ => Mirrors.map _ hz
  rw [toExpression]
  refine Mirrors.within (b := toConditional _) ?_
  simp only [significant, inner, List.filter_cons, hif, helse, hk, hk', hk'']
  exact hforms.congr fun around => by simp [landmarks, Rule.isStatement, Keyword.piece]

theorem mirrors_binding (name : String) (text : List Char) (hk : x.isKeyword = false)
    (hx : x.toExpression.Mirrors [x]) :
    (mk .letStatement text
      [Keyword.letWord.piece .letKeyword, namePiece name, x]).toStatement.Mirrors
        [mk .letStatement text [Keyword.letWord.piece .letKeyword, namePiece name, x]] := by
  have hlet : (Keyword.letWord.piece .letKeyword).isKeyword = true := rfl
  have hname : (namePiece name).isKeyword = false := rfl
  have hvalue : (toBinding [namePiece name, x]).Mirrors ([namePiece name] ++ [x]) := by
    rw [toBinding]
    exact (mirrors_identifier name).bind fun _ => Mirrors.map _ (mirrors_first hx)
  refine mirrors_statement (b := toBinding _) rfl (by rw [toStatement]; rfl) ?_
  simp only [significant, inner, List.filter_cons, hlet, hname, hk]
  exact hvalue.congr fun around => by simp [landmarks, Rule.isStatement, Keyword.piece]

theorem mirrors_returning (text : List Char) (hk : x.isKeyword = false)
    (hx : x.toExpression.Mirrors [x]) :
    (mk .returnStatement text [Keyword.returnWord.piece .returnKeyword, x]).toStatement.Mirrors
      [mk .returnStatement text [Keyword.returnWord.piece .returnKeyword, x]] := by
  have hreturn : (Keyword.returnWord.piece .returnKeyword).isKeyword = true := rfl
  refine mirrors_statement (b := Statement.returning <$> firstToExpression _) rfl
    (by rw [toStatement]; rfl) ?_
  simp only [significant, inner, List.filter_cons, hreturn, hk]
  exact ((mirrors_first hx).map _).congr fun around => by
    simp [landmarks, Rule.isStatement, Keyword.piece]

end Forms

end Piece

/-- How the journal follows the pieces that stand for a part. The operands of a level and the calls
may go on with other pieces. -/
def Mirrored : Part → List Piece → Prop
  | .phrase _ _, ps => ∃ x, ps = [x] ∧ x.isKeyword = false ∧ x.rule ≠ .unaryOperator ∧
      x.toExpression.Mirrors [x]
  | .operands _ _, ps => ∀ qs, (∀ e, (Piece.toOperands e qs).Mirrors qs) →
      (Piece.toOperation (ps ++ qs)).Mirrors (ps ++ qs)
  | .calls _, ps => ∀ qs, (∀ e, (Piece.toCalls e qs).Mirrors qs) →
      (Piece.toCall (ps ++ qs)).Mirrors (ps ++ qs)
  | .items _, ps => (Piece.toExpressions ps).Mirrors ps
  | .block _, ps => ∃ x, ps = [x] ∧ x.isKeyword = false ∧ x.toBlock.Mirrors [x]
  | .clause _, ps => ∃ x, ps = [x] ∧ x.rule ≠ .endOfInput ∧ x.toStatement.Mirrors [x]
  | .clauses _, ps => ∀ qs, (Piece.toStatements qs).Mirrors qs →
      (Piece.toStatements (ps ++ qs)).Mirrors (ps ++ qs)

open Building in
theorem Tree.mirrored {part : Part} {ps : List Piece} (h : Tree part ps) : Mirrored part ps := by
  induction h with
  | name text => exact ⟨_, rfl, rfl, by simp [rule, namePiece], mirrors_name text⟩
  | numeral digits => exact ⟨_, rfl, rfl, by simp [rule], mirrors_integer digits⟩
  | boolean value => exact ⟨_, rfl, rfl, by simp [rule, Keyword.piece], mirrors_boolean value⟩
  | grouped inner ih => exact ih
  | @function params cs text ps names htext body ih =>
      obtain ⟨x, rfl, hk, hx⟩ := ih
      refine ⟨_, rfl, rfl, by simp [rule], mirrors_function text names params hk hx⟩
  | ifThen htext test yes ihp ihcs =>
      obtain ⟨x, rfl, hk, -, hx⟩ := ihp
      obtain ⟨y, rfl, hk', hy⟩ := ihcs
      exact ⟨_, rfl, rfl, by simp [rule], mirrors_ifThen _ hk hk' hx hy⟩
  | ifThenElse htext test yes no ihp ihcs ihds =>
      obtain ⟨x, rfl, hk, -, hx⟩ := ihp
      obtain ⟨y, rfl, hk', hy⟩ := ihcs
      obtain ⟨z, rfl, hk'', hz⟩ := ihds
      exact ⟨_, rfl, rfl, by simp [rule], mirrors_ifThenElse _ hk hk' hk'' hx hy hz⟩
  | callee first ih =>
      obtain ⟨x, rfl, -, -, hx⟩ := ih
      intro qs hqs
      rw [List.singleton_append, Piece.toCall]
      exact hx.bind hqs
  | call text callee list ihp ihargs =>
      intro rs hrs
      rw [List.append_assoc]
      refine ihp _ fun e => ?_
      rw [List.singleton_append, Piece.toCalls]
      refine ((mirrors_enter (by decide) _).bind fun _ => ihargs.bind fun _ => hrs _).congr ?_
      simp [landmarks, Rule.isStatement]
  | called htext calls ih =>
      refine ⟨_, rfl, rfl, by simp [rule], ?_⟩
      have hcall := ih [] fun e => by
        rw [Piece.toCalls]
        exact mirrors_pure e
      rw [List.append_nil] at hcall
      rw [Piece.toExpression]
      exact hcall.within
  | signed ops htext operand ih =>
      obtain ⟨x, rfl, -, hr, hx⟩ := ih
      refine ⟨_, rfl, rfl, by simp [rule], ?_⟩
      rw [Piece.toExpression]
      exact (mirrors_signed ops [] hr hx).within
  | operand first ih =>
      obtain ⟨x, rfl, -, -, hx⟩ := ih
      intro qs hqs
      rw [List.singleton_append, Piece.toOperation]
      exact hx.bind hqs
  | @operation p q op ps qs left right ihp ihq =>
      obtain ⟨x, rfl, -, -, hx⟩ := ihq
      intro rs hrs
      rw [List.append_assoc]
      refine ihp _ fun e => ?_
      rw [List.cons_append, List.singleton_append, Piece.toOperands]
      exact (mirrors_binaryOp op).bind fun _ => hx.bind fun _ => hrs _
  | @level l p text ps htext operands ih =>
      have hoperation := ih [] fun e => by
        rw [Piece.toOperands]
        exact mirrors_pure e
      rw [List.append_nil] at hoperation
      refine ⟨_, rfl, by cases l <;> rfl, by cases l <;> simp [rule, Level.rule], ?_⟩
      rw [Piece.toExpression]
      cases l <;> exact hoperation.within
  | expression htext inner ih =>
      obtain ⟨x, rfl, -, -, hx⟩ := ih
      refine ⟨_, rfl, rfl, by simp [rule], ?_⟩
      rw [Piece.toExpression]
      exact (mirrors_first hx).within
  | noItem =>
      rw [Mirrored, Piece.toExpressions]
      exact mirrors_pure []
  | item first more ihp ihps =>
      obtain ⟨x, rfl, -, -, hx⟩ := ihp
      rw [Mirrored, List.singleton_append, Piece.toExpressions]
      exact hx.bind fun _ => Mirrors.map _ ihps
  | block text body ih =>
      have hbody := ih [] (by rw [Piece.toStatements]; exact mirrors_pure [])
      rw [List.append_nil] at hbody
      refine ⟨_, rfl, rfl, ?_⟩
      rw [Piece.toBlock]
      exact hbody.within
  | binding htext value ih =>
      obtain ⟨x, rfl, hk, -, hx⟩ := ih
      exact ⟨_, rfl, by simp [rule], mirrors_binding _ _ hk hx⟩
  | returning htext value ih =>
      obtain ⟨x, rfl, hk, -, hx⟩ := ih
      exact ⟨_, rfl, by simp [rule], mirrors_returning _ hk hx⟩
  | evaluation htext value ih =>
      obtain ⟨x, rfl, -, -, hx⟩ := ih
      have hvalue := (mirrors_first hx).map Statement.expression
      refine ⟨_, rfl, by simp [rule], mirrors_statement rfl ?_ hvalue⟩
      rw [Piece.toStatement]
      rfl
  | noClause => exact fun qs hqs => hqs
  | clause first more ihc ihcs =>
      obtain ⟨x, rfl, hr, hx⟩ := ihc
      intro qs hqs
      rw [List.append_assoc, List.singleton_append, Piece.toStatements, if_neg hr]
      exact (hx.map _).bind fun _ => Mirrors.map _ (ihcs qs hqs)

end MonkeyLang
