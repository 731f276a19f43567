import MonkeyLang.Parse.Basic

/-!
What a journal is about. Each entry that is made before something is built names a piece of the
text, and where the building succeeds that piece has been built by itself.
-/
namespace MonkeyLang
namespace Piece

mutual

/-- A piece and the pieces inside it, each before those inside it. -/
def subpieces : Piece → List Piece
  | mk rule text inner => mk rule text inner :: subpiecesOf inner

def subpiecesOf : List Piece → List Piece
  | [] => []
  | p :: ps => p.subpieces ++ subpiecesOf ps

end

theorem subpieces_eq (p : Piece) : p.subpieces = p :: subpiecesOf p.inner := by
  cases p
  rfl

theorem mem_subpieces (p : Piece) : p ∈ p.subpieces := by
  rw [subpieces_eq]
  exact List.mem_cons_self

theorem subpiecesOf_append (ps qs : List Piece) :
    subpiecesOf (ps ++ qs) = subpiecesOf ps ++ subpiecesOf qs := by
  induction ps with
  | nil => rfl
  | cons p ps ih => rw [List.cons_append, subpiecesOf, subpiecesOf, ih, List.append_assoc]

theorem inner_subset (p : Piece) : subpiecesOf p.inner ⊆ p.subpieces := by
  rw [subpieces_eq]
  exact List.subset_cons_self _ _

theorem filter_subset (f : Piece → Bool) (ps : List Piece) :
    subpiecesOf (ps.filter f) ⊆ subpiecesOf ps := by
  induction ps with
  | nil => exact List.Subset.refl _
  | cons p ps ih =>
      rw [List.filter_cons, subpiecesOf]
      split
      · exact List.append_subset.mpr
          ⟨List.subset_append_left _ _, List.subset_append_of_subset_right _ ih⟩
      · exact List.subset_append_of_subset_right _ ih

theorem significant_subset (p : Piece) : subpiecesOf p.significant ⊆ p.subpieces :=
  List.Subset.trans (filter_subset _ _) p.inner_subset

end Piece

/-- Statements and expressions are built from the pieces that are entered as such. -/
def Role.Builds : Role → Piece → Prop
  | statement, p => ∃ s, p.toStatement.outcome = .ok s
  | expression, p => ∃ e, p.toExpression.outcome = .ok e
  | block, _ | integer, _ | boolean, _ | identifier, _ | binaryOperator, _ | unaryOperator, _
  | arguments, _ => True

namespace Building

variable {α β : Type} {xs ys : List Piece}

/-- If a value is built, the entries on the way are about some of the pieces. -/
def Visits (b : Building α) (xs : List Piece) : Prop :=
  ∀ a, b.outcome = .ok a → ∀ role rule text, .entered role rule text ∈ b.entries →
    ∃ x ∈ xs, x.rule = rule ∧ x.text = text ∧ role.Builds x

theorem entries_bind {b : Building α} {a : α} (h : b.outcome = .ok a) (f : α → Building β) :
    (b >>= f).entries = b.entries ++ (f a).entries := by
  obtain ⟨outcome, entries⟩ := b
  cases h
  rfl

theorem exists_of_bind {b : Building α} {f : α → Building β} {y : β}
    (h : (b >>= f).outcome = .ok y) : ∃ a, b.outcome = .ok a ∧ (f a).outcome = .ok y := by
  rw [outcome_bind] at h
  cases hb : b.outcome with
  | error e =>
      rw [hb] at h
      cases h
  | ok a =>
      rw [hb] at h
      exact ⟨a, rfl, h⟩

theorem Visits.mono {b : Building α} (h : b.Visits xs) (hs : xs ⊆ ys) : b.Visits ys := by
  intro a ha role rule text he
  obtain ⟨x, hx, hvisit⟩ := h a ha role rule text he
  exact ⟨x, hs hx, hvisit⟩

theorem Visits.bind {b : Building α} {f : α → Building β} (h : b.Visits xs)
    (hf : ∀ a, (f a).Visits xs) : (b >>= f).Visits xs := by
  intro y hy role rule text he
  obtain ⟨a, ha, hfa⟩ := exists_of_bind hy
  rw [entries_bind ha, List.mem_append] at he
  cases he with
  | inl he => exact h a ha role rule text he
  | inr he => exact hf a y hfa role rule text he

theorem visits_pure (a : α) : (pure a : Building α).Visits xs :=
  fun _ _ _ _ _ he => nomatch he

theorem visits_fail (e : ParseError) : (fail e : Building α).Visits xs :=
  fun _ ha => nomatch ha

theorem Visits.map {b : Building α} (f : α → β) (h : b.Visits xs) : (f <$> b).Visits xs :=
  h.bind fun a => visits_pure (f a)

theorem visits_note {e : Entry} (he : ∀ role rule text, e ≠ .entered role rule text) :
    (note e).Visits xs := by
  intro _ _ role rule text hmem
  exact absurd (List.mem_singleton.mp hmem).symm (he role rule text)

/-- A piece is entered and then something is built. -/
theorem visits_enter {role : Role} {p : Piece} {b : Building α} (hp : p ∈ xs)
    (hrole : ∀ a, (p.enter role >>= fun _ => b).outcome = .ok a → role.Builds p)
    (h : b.Visits xs) : (p.enter role >>= fun _ => b).Visits xs := by
  intro a ha role' rule text he
  rw [entries_bind (a := ()) rfl, List.mem_append] at he
  cases he with
  | inl he =>
      cases List.mem_singleton.mp he
      exact ⟨p, hp, rfl, rfl, hrole a ha⟩
  | inr he =>
      obtain ⟨_, -, hb⟩ := exists_of_bind ha
      exact h a hb role' rule text he

theorem Visits.left {b : Building α} {p : Piece} (h : b.Visits p.subpieces) (ps : List Piece) :
    b.Visits (Piece.subpiecesOf (p :: ps)) :=
  h.mono (List.subset_append_left _ _)

theorem Visits.right {b : Building α} {ps : List Piece} (p : Piece)
    (h : b.Visits (Piece.subpiecesOf ps)) : b.Visits (Piece.subpiecesOf (p :: ps)) :=
  h.mono (List.subset_append_right _ _)

end Building

namespace Piece

open Building

theorem visits_toIdentifier (p : Piece) : p.toIdentifier.Visits p.subpieces := by
  refine visits_enter p.mem_subpieces (fun _ _ => trivial) ?_
  split
  · exact visits_pure _
  · exact visits_fail _

theorem visits_toIdentifiers (ps : List Piece) :
    (toIdentifiers ps).Visits (subpiecesOf ps) := by
  induction ps with
  | nil => exact visits_pure _
  | cons p ps ih =>
      exact (p.visits_toIdentifier.left ps).bind fun _ => (ih.right p).bind fun _ => visits_pure _

theorem visits_toBinaryOp (p : Piece) : p.toBinaryOp.Visits p.subpieces := by
  refine visits_enter p.mem_subpieces (fun _ _ => trivial) ?_
  split
  · exact visits_pure _
  · exact visits_fail _

theorem visits_toUnaryOp (p : Piece) : p.toUnaryOp.Visits p.subpieces := by
  refine visits_enter p.mem_subpieces (fun _ _ => trivial) ?_
  split
  · exact visits_pure _
  · exact visits_fail _

theorem visits_toInteger (p : Piece) : p.toInteger.Visits p.subpieces := by
  refine visits_enter p.mem_subpieces (fun _ _ => trivial) ?_
  split
  · exact visits_fail _
  · exact visits_pure _

theorem visits_toBoolean (p : Piece) : p.toBoolean.Visits p.subpieces := by
  refine visits_enter p.mem_subpieces (fun _ _ => trivial) ?_
  split
  · exact visits_pure _
  · split
    · exact visits_pure _
    · exact visits_fail _

mutual

theorem visits_toStatements (ps : List Piece) : (toStatements ps).Visits (subpiecesOf ps) := by
  match ps with
  | [] =>
      rw [toStatements]
      exact visits_pure _
  | p :: ps =>
      have hmore (first : List Statement) :
          (toStatements ps >>= fun rest => pure (first ++ rest)).Visits (subpiecesOf (p :: ps)) :=
        ((visits_toStatements ps).right p).bind fun _ => visits_pure _
      rw [toStatements]
      split
      · exact (visits_pure _).bind hmore
      · exact ((p.visits_toStatement.left ps).map _).bind hmore
termination_by sizeOf ps

theorem visits_toStatement (p : Piece) : p.toStatement.Visits p.subpieces := by
  rw [toStatement]
  refine visits_enter p.mem_subpieces (fun s hs => ⟨s, by rwa [toStatement]⟩) ?_
  have hdone (s : Statement) :
      (note (.completed s) >>= fun _ => pure s).Visits p.subpieces :=
    (visits_note (by simp)).bind fun _ => visits_pure s
  dsimp only
  split
  · exact ((visits_toBinding p.significant).mono p.significant_subset).bind hdone
  · exact (((visits_firstToExpression p.significant).mono p.significant_subset).map _).bind hdone
  · exact (((visits_firstToExpression p.inner).mono p.inner_subset).map _).bind hdone
  · exact (visits_note (by simp)).bind fun _ => (visits_fail _).bind hdone
termination_by sizeOf p
decreasing_by
  all_goals first | exact p.sizeOf_inner_lt | exact p.sizeOf_significant_lt

theorem visits_toBinding (ps : List Piece) : (toBinding ps).Visits (subpiecesOf ps) := by
  match ps with
  | [] =>
      rw [toBinding]
      exact visits_fail _
  | name :: more =>
      rw [toBinding]
      exact (name.visits_toIdentifier.left more).bind fun _ =>
        ((visits_firstToExpression more).right name).bind fun _ => visits_pure _
termination_by sizeOf ps

theorem visits_toBlock (p : Piece) : p.toBlock.Visits p.subpieces := by
  rw [toBlock]
  refine visits_enter p.mem_subpieces (fun _ _ => trivial) ?_
  split
  · exact (visits_toStatements p.inner).mono p.inner_subset
  · exact visits_fail _
termination_by sizeOf p
decreasing_by exact p.sizeOf_inner_lt

theorem visits_firstToBlock (ps : List Piece) : (firstToBlock ps).Visits (subpiecesOf ps) := by
  match ps with
  | [] =>
      rw [firstToBlock]
      exact visits_fail _
  | p :: ps =>
      rw [firstToBlock]
      exact p.visits_toBlock.left ps
termination_by sizeOf ps

theorem visits_toExpression (p : Piece) : p.toExpression.Visits p.subpieces := by
  rw [toExpression]
  refine visits_enter p.mem_subpieces (fun e he => ⟨e, by rwa [toExpression]⟩) ?_
  split
  · exact (visits_firstToExpression p.inner).mono p.inner_subset
  iterate 4 · exact (visits_toOperation p.inner).mono p.inner_subset
  · exact (visits_toSigned p.inner [] none).mono p.inner_subset
  · exact (visits_toCall p.inner).mono p.inner_subset
  · exact (visits_toConditional p.significant).mono p.significant_subset
  · exact (visits_toFunction p.significant).mono p.significant_subset
  · exact p.visits_toInteger.map _
  · exact p.visits_toBoolean.map _
  · exact p.visits_toIdentifier.map _
  · exact visits_fail _
termination_by sizeOf p
decreasing_by
  all_goals first | exact p.sizeOf_inner_lt | exact p.sizeOf_significant_lt

theorem visits_firstToExpression (ps : List Piece) :
    (firstToExpression ps).Visits (subpiecesOf ps) := by
  match ps with
  | [] =>
      rw [firstToExpression]
      exact visits_fail _
  | p :: ps =>
      rw [firstToExpression]
      exact p.visits_toExpression.left ps
termination_by sizeOf ps

theorem visits_toOperation (ps : List Piece) : (toOperation ps).Visits (subpiecesOf ps) := by
  match ps with
  | [] =>
      rw [toOperation]
      exact visits_fail _
  | left :: more =>
      rw [toOperation]
      exact (left.visits_toExpression.left more).bind fun e =>
        (visits_toOperands more e).right left
termination_by sizeOf ps

theorem visits_toOperands (ps : List Piece) (left : Expression) :
    (toOperands left ps).Visits (subpiecesOf ps) := by
  match ps with
  | [] =>
      rw [toOperands]
      exact visits_pure _
  | [op] =>
      rw [toOperands]
      exact (op.visits_toBinaryOp.left []).bind fun _ => visits_fail _
  | op :: right :: more =>
      rw [toOperands]
      exact (op.visits_toBinaryOp.left _).bind fun _ =>
        ((right.visits_toExpression.left more).right op).bind fun e =>
          ((visits_toOperands more _).right right).right op
termination_by sizeOf ps

theorem visits_toSigned (ps : List Piece) (ops : List UnaryOp) (operand : Option Expression) :
    (toSigned ops operand ps).Visits (subpiecesOf ps) := by
  match ps with
  | [] =>
      cases operand with
      | none =>
          rw [toSigned]
          exact visits_fail _
      | some e =>
          rw [toSigned]
          exact visits_pure _
  | p :: ps =>
      rw [toSigned]
      split
      · exact (p.visits_toUnaryOp.left ps).bind fun _ => (visits_toSigned ps _ _).right p
      · exact (p.visits_toExpression.left ps).bind fun _ => (visits_toSigned ps _ _).right p
termination_by sizeOf ps

theorem visits_toCall (ps : List Piece) : (toCall ps).Visits (subpiecesOf ps) := by
  match ps with
  | [] =>
      rw [toCall]
      exact visits_fail _
  | callee :: more =>
      rw [toCall]
      exact (callee.visits_toExpression.left more).bind fun e =>
        (visits_toCalls more e).right callee
termination_by sizeOf ps

theorem visits_toCalls (ps : List Piece) (callee : Expression) :
    (toCalls callee ps).Visits (subpiecesOf ps) := by
  match ps with
  | [] =>
      rw [toCalls]
      exact visits_pure _
  | args :: more =>
      have hargs : args ∈ subpiecesOf (args :: more) :=
        List.mem_append_left _ args.mem_subpieces
      rw [toCalls]
      refine visits_enter hargs (fun _ _ => trivial) (.bind ?_ fun _ => ?_)
      · exact ((visits_toExpressions args.inner).mono args.inner_subset).left more
      · exact (visits_toCalls more _).right args
termination_by sizeOf ps
decreasing_by
  · exact Nat.lt_trans args.sizeOf_inner_lt (List.sizeOf_lt_of_mem List.mem_cons_self)
  · decreasing_tactic

theorem visits_toExpressions (ps : List Piece) :
    (toExpressions ps).Visits (subpiecesOf ps) := by
  match ps with
  | [] =>
      rw [toExpressions]
      exact visits_pure _
  | p :: ps =>
      rw [toExpressions]
      exact (p.visits_toExpression.left ps).bind fun _ =>
        ((visits_toExpressions ps).right p).bind fun _ => visits_pure _
termination_by sizeOf ps

theorem visits_toConditional (ps : List Piece) :
    (toConditional ps).Visits (subpiecesOf ps) := by
  match ps with
  | [] =>
      rw [toConditional]
      exact visits_fail _
  | test :: more =>
      rw [toConditional]
      exact (test.visits_toExpression.left more).bind fun e =>
        (visits_toBranches more e).right test
termination_by sizeOf ps

theorem visits_toBranches (ps : List Piece) (test : Expression) :
    (toBranches test ps).Visits (subpiecesOf ps) := by
  match ps with
  | [] =>
      rw [toBranches]
      exact visits_fail _
  | [yes] =>
      rw [toBranches]
      exact (yes.visits_toBlock.left []).bind fun _ => visits_pure _
  | yes :: no :: more =>
      rw [toBranches]
      exact (yes.visits_toBlock.left _).bind fun _ =>
        ((no.visits_toBlock.left more).right yes).bind fun _ => visits_pure _
termination_by sizeOf ps

theorem visits_toFunction (ps : List Piece) : (toFunction ps).Visits (subpiecesOf ps) := by
  match ps with
  | [] =>
      rw [toFunction]
      exact visits_fail _
  | params :: more =>
      rw [toFunction]
      exact (((visits_toIdentifiers params.inner).mono params.inner_subset).left more).bind fun _ =>
        ((visits_firstToBlock more).right params).bind fun _ => visits_pure _
termination_by sizeOf ps

end

end Piece

theorem Program.visits_ofPieces (ps : List Piece) :
    (ofPieces ps).Visits (Piece.subpiecesOf ps) := by
  cases ps with
  | nil => exact Building.visits_fail _
  | cons root ps =>
      have hroot := (Piece.visits_toStatements root.inner).mono root.inner_subset
      exact (hroot.left ps).bind fun _ =>
        (Building.visits_note (by simp)).bind fun _ => Building.visits_pure _

end MonkeyLang
