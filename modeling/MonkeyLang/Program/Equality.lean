import MonkeyLang.Program.Basic

/-!
Equality of programs is decided by comparing their trees node by node.
-/
namespace MonkeyLang

mutual

def Expression.same : Expression → Expression → Bool
  | .name a, .name b => a = b
  | .integer a, .integer b => a = b
  | .boolean a, .boolean b => a = b
  | .unary p a, .unary q b => p = q && a.same b
  | .binary a p c, .binary b q d => a.same b && p = q && c.same d
  | .conditional a y none, .conditional b z none => a.same b && sameStatements y z
  | .conditional a y (some n), .conditional b z (some m) =>
      a.same b && sameStatements y z && sameStatements n m
  | .function p a, .function q b => p = q && sameStatements a b
  | .call f a, .call g b => f.same g && sameExpressions a b
  | _, _ => false

def Statement.same : Statement → Statement → Bool
  | .binding n a, .binding m b => n = m && a.same b
  | .returning a, .returning b => a.same b
  | .expression a, .expression b => a.same b
  | _, _ => false

def sameStatements : List Statement → List Statement → Bool
  | [], [] => true
  | a :: as, b :: bs => a.same b && sameStatements as bs
  | _, _ => false

def sameExpressions : List Expression → List Expression → Bool
  | [], [] => true
  | a :: as, b :: bs => a.same b && sameExpressions as bs
  | _, _ => false

end

mutual

theorem Expression.same_iff : (a b : Expression) → (a.same b = true ↔ a = b)
  | .name _, b | .integer _, b | .boolean _, b => by cases b <;> simp [Expression.same]
  | .unary _ a, b => by
      cases b <;> simp [Expression.same, Expression.same_iff a]
  | .binary a _ c, b => by
      cases b <;> simp [Expression.same, Expression.same_iff a, Expression.same_iff c, and_assoc]
  | .conditional a y none, b => by
      cases b with
      | conditional b z m =>
          cases m <;> simp [Expression.same, Expression.same_iff a, sameStatements_iff y]
      | _ => simp [Expression.same]
  | .conditional a y (some n), b => by
      cases b with
      | conditional b z m =>
          cases m <;> simp [Expression.same, Expression.same_iff a, sameStatements_iff y,
            sameStatements_iff n, and_assoc]
      | _ => simp [Expression.same]
  | .function _ a, b => by
      cases b <;> simp [Expression.same, sameStatements_iff a]
  | .call f a, b => by
      cases b <;> simp [Expression.same, Expression.same_iff f, sameExpressions_iff a]

theorem Statement.same_iff : (a b : Statement) → (a.same b = true ↔ a = b)
  | .binding _ a, b | .returning a, b | .expression a, b => by
      cases b <;> simp [Statement.same, Expression.same_iff a]

theorem sameStatements_iff : (a b : List Statement) → (sameStatements a b = true ↔ a = b)
  | [], b => by cases b <;> simp [sameStatements]
  | a :: as, b => by
      cases b <;> simp [sameStatements, Statement.same_iff a, sameStatements_iff as]

theorem sameExpressions_iff : (a b : List Expression) → (sameExpressions a b = true ↔ a = b)
  | [], b => by cases b <;> simp [sameExpressions]
  | a :: as, b => by
      cases b <;> simp [sameExpressions, Expression.same_iff a, sameExpressions_iff as]

end

instance : DecidableEq Expression := fun a b => decidable_of_iff _ (Expression.same_iff a b)

instance : DecidableEq Statement := fun a b => decidable_of_iff _ (Statement.same_iff a b)

theorem Program.same_iff (a b : Program) :
    sameStatements a.statements b.statements = true ↔ a = b := by
  cases a
  cases b
  simp [sameStatements_iff]

instance : DecidableEq Program := fun a b => decidable_of_iff _ (Program.same_iff a b)

end MonkeyLang
