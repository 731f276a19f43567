import MonkeyLang.Proofs.Parse.Spans

/-!
Following a journal through a text. A reader of the journal meets the statements and the integers of
the text in the order in which they are written, and keeps those statements open that are entered
but not completed. A line is accepted only where the open statements are the ones around what it is
about, and a completed statement is the one that was opened last.
-/
namespace MonkeyLang

/-- A statement or an integer of a text, and the statements around it, the innermost first. -/
structure Landmark where
  around : List Piece
  piece : Piece

namespace Landmark

def role (m : Landmark) : Role := if m.piece.rule.isStatement then .statement else .integer

/-- The landmark is an integer that is too large. -/
def isOversized (m : Landmark) : Bool :=
  decide (m.piece.rule = .integer) && MonkeyLang.isOversized m.piece.text

end Landmark

namespace Piece

mutual

/-- The statements and the integers of a piece in the order in which they are written. -/
def landmarks (around : List Piece) : Piece → List Landmark
  | mk rule text inner =>
    if rule.isStatement then
      ⟨around, mk rule text inner⟩ :: landmarksOf (mk rule text inner :: around) inner
    else if rule = .integer then
      ⟨around, mk rule text inner⟩ :: landmarksOf around inner
    else
      landmarksOf around inner

def landmarksOf (around : List Piece) : List Piece → List Landmark
  | [] => []
  | p :: ps => p.landmarks around ++ landmarksOf around ps

end

variable (around : List Piece)

@[simp] theorem landmarksOf_nil : landmarksOf around [] = [] := rfl

@[simp] theorem landmarksOf_cons (p : Piece) (ps : List Piece) :
    landmarksOf around (p :: ps) = p.landmarks around ++ landmarksOf around ps :=
  rfl

@[simp] theorem landmarksOf_append (ps qs : List Piece) :
    landmarksOf around (ps ++ qs) = landmarksOf around ps ++ landmarksOf around qs := by
  induction ps with
  | nil => rfl
  | cons p ps ih => rw [List.cons_append, landmarksOf_cons, ih, landmarksOf_cons, List.append_assoc]

theorem landmarks_of_statement {p : Piece} (h : p.rule.isStatement = true) :
    p.landmarks around = ⟨around, p⟩ :: landmarksOf (p :: around) p.inner := by
  cases p
  exact if_pos h

/-- Other pieces count only for what is inside them. -/
theorem landmarks_of_other {p : Piece} (h : p.rule.isStatement = false) (hrule : p.rule ≠ .integer) :
    p.landmarks around = landmarksOf around p.inner := by
  cases p
  exact (if_neg (by rw [← Bool.not_eq_true] at h; exact h)).trans (if_neg hrule)

@[simp] theorem landmarks_unary (op : UnaryOp) : op.piece.landmarks around = [] := rfl

@[simp] theorem landmarks_binary (op : BinaryOp) : op.piece.landmarks around = [] := by
  cases op <;> rfl

@[simp] theorem landmarks_name (name : String) : (namePiece name).landmarks around = [] := rfl

theorem landmarksOf_names (names : List String) : landmarksOf around (names.map namePiece) = [] := by
  induction names with
  | nil => rfl
  | cons name names ih => rw [List.map_cons, landmarksOf_cons, ih, landmarks_name, List.nil_append]

theorem landmarksOf_signs (ops : List UnaryOp) :
    landmarksOf around (ops.map UnaryOp.piece) = [] := by
  induction ops with
  | nil => rfl
  | cons op ops ih => rw [List.map_cons, landmarksOf_cons, ih, landmarks_unary, List.nil_append]

end Piece

open Piece

/-- The statements and the integers of a text. -/
def landmarksIn (text : String) : List Landmark :=
  match (Cursor.start text.toList).program.outcome with
  | some found => landmarksOf [] found.1
  | none => []

/-- The landmarks that are still to come, and the statements that are open, the innermost first. -/
structure Progress where
  ahead : List Landmark
  opened : List Piece

/-- What a line does. A refusal does nothing that is accepted, and the statements are counted only
at the end. -/
inductive Entry.Moves : Entry → Progress → Progress → Prop
  | opens {p : Piece} {ahead : List Landmark} {opened : List Piece}
      (hrule : p.rule.isStatement = true) :
      Moves (.entered .statement p.rule p.text) ⟨⟨opened, p⟩ :: ahead, opened⟩ ⟨ahead, p :: opened⟩
  | meets {p : Piece} {ahead : List Landmark} {opened : List Piece} (hrule : p.rule = .integer) :
      Moves (.entered .integer p.rule p.text) ⟨⟨opened, p⟩ :: ahead, opened⟩ ⟨ahead, opened⟩
  | passes {role : Role} {rule : Rule} {text : List Char} {s : Progress}
      (hrole : role ≠ .statement ∧ role ≠ .integer) : Moves (.entered role rule text) s s
  | closes {p : Piece} {s : Statement} {ahead : List Landmark} {opened : List Piece}
      (hs : p.toStatement.outcome = .ok s) :
      Moves (.completed s) ⟨ahead, p :: opened⟩ ⟨ahead, opened⟩
  | counts (n : Nat) : Moves (.counted n) ⟨[], []⟩ ⟨[], []⟩

inductive Runs : List Entry → Progress → Progress → Prop
  | nil (s : Progress) : Runs [] s s
  | cons {e : Entry} {es : List Entry} {s t u : Progress} (h : e.Moves s t) (hs : Runs es t u) :
      Runs (e :: es) s u

section Runs

variable {e : Entry} {es fs : List Entry} {s t u : Progress}

theorem Entry.Moves.runs (h : e.Moves s t) : Runs [e] s t := .cons h (.nil t)

theorem Runs.append (h : Runs es s t) (h' : Runs fs t u) : Runs (es ++ fs) s u := by
  induction h with
  | nil => exact h'
  | cons hmove _ ih => exact .cons hmove (ih h')

theorem Runs.not_mem_refused (h : Runs es s t) : .refused ∉ es := by
  induction h with
  | nil => exact List.not_mem_nil
  | cons hmove _ ih =>
      refine List.not_mem_cons_of_ne_of_not_mem ?_ ih
      rintro rfl
      cases hmove

end Runs

/-- The role of a line that is about a landmark. -/
def Entry.landmark? : Entry → Option Role
  | entered role _ _ => if role = .statement ∨ role = .integer then some role else none
  | completed _ | refused | counted _ => none

section Roles

variable {e : Entry} {es : List Entry} {s t : Progress}

theorem Entry.Moves.roles_eq (h : e.Moves s t) :
    s.ahead.map Landmark.role = [e].filterMap Entry.landmark? ++ t.ahead.map Landmark.role := by
  cases h with
  | opens hrule => simp [landmark?, Landmark.role, hrule]
  | meets hrule => simp [landmark?, Landmark.role, hrule, Rule.isStatement]
  | passes hrole => simp [landmark?, hrole]
  | closes hs => rfl
  | counts n => rfl

/-- The lines about landmarks are about those that have been passed, one by one. -/
theorem Runs.roles_eq (h : Runs es s t) :
    s.ahead.map Landmark.role = es.filterMap Entry.landmark? ++ t.ahead.map Landmark.role := by
  induction h with
  | nil => rfl
  | cons hmove _ ih =>
      rw [hmove.roles_eq, ih, ← List.append_assoc, ← List.filterMap_append, List.singleton_append]

/-- Where something is still ahead, the statements have not been counted. -/
theorem Runs.not_mem_counted (h : Runs es s t) (ht : t.ahead ≠ []) (n : Nat) :
    .counted n ∉ es := by
  induction h with
  | nil => exact List.not_mem_nil
  | cons hmove hrest ih =>
      refine List.not_mem_cons_of_ne_of_not_mem ?_ (ih ht)
      rintro rfl
      cases hmove
      have hroles := hrest.roles_eq
      rw [List.map_nil, eq_comm, List.append_eq_nil_iff, List.map_eq_nil_iff] at hroles
      exact ht hroles.2

end Roles

end MonkeyLang
