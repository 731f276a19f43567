import MonkeyLang.Program.Node

/-!
Programs whose rendering can be read: every condition brings the parentheses of its `if` along, and
the statements, between which nothing is rendered, cannot be read into each other. Either is a
property of single nodes.
-/
namespace MonkeyLang

/-- Whether the rendering is put in parentheses. -/
def Expression.isOperation : Expression → Bool
  | .unary _ _ | .binary _ _ _ => true
  | .name _ | .integer _ | .boolean _ | .conditional _ _ _ | .function _ _ | .call _ _ => false

/-- Whether a statement can stand right before a rendering. A statement with a semicolon can; an
expression would be called by a parenthesis, and a word or a number would grow. -/
def Statement.StandsBefore : Statement → List Char → Prop
  | .binding _ _, _ | .returning _, _ => True
  | .expression (.name _), _ | .expression (.boolean _), _ => False
  | .expression (.integer _), cs => cs.head? ≠ some '(' ∧ cs.head?.any Char.isDigit = false
  | .expression _, cs => cs.head? ≠ some '('

mutual

def Expression.Printable : Expression → Prop
  | .name _ | .integer _ | .boolean _ => True
  | .unary _ operand => operand.Printable
  | .binary left _ right => left.Printable ∧ right.Printable
  | .conditional test yes none =>
      test.isOperation = true ∧ test.Printable ∧ StatementsPrintable yes
  | .conditional test yes (some no) =>
      test.isOperation = true ∧ test.Printable ∧ StatementsPrintable yes ∧ StatementsPrintable no
  | .function _ body => StatementsPrintable body
  | .call callee args => callee.Printable ∧ ExpressionsPrintable args

def Statement.Printable : Statement → Prop
  | .binding _ value | .returning value | .expression value => value.Printable

def StatementsPrintable : List Statement → Prop
  | [] => True
  | s :: ss =>
      s.Printable ∧ (∀ next ∈ ss.head?, s.StandsBefore next.render.toList) ∧ StatementsPrintable ss

def ExpressionsPrintable : List Expression → Prop
  | [] => True
  | e :: es => e.Printable ∧ ExpressionsPrintable es

end

def Program.Printable (p : Program) : Prop := StatementsPrintable p.statements

/-- Each of the statements can stand right before the next one. -/
def StandApart : List Statement → Prop
  | [] => True
  | s :: ss => (∀ next ∈ ss.head?, s.StandsBefore next.render.toList) ∧ StandApart ss

/-- The statements that stand right below a node. -/
def Node.statements : Node → List Statement
  | program p => p.statements
  | block b => b
  | statement _ | expression _ => []

/-- The statements right below the node cannot be read into each other. -/
def Node.Apart (n : Node) : Prop := StandApart n.statements

/-- If the expression is an `if`, its condition is rendered in parentheses. -/
def Expression.TestsOperation : Expression → Prop
  | .conditional test _ _ => test.isOperation = true
  | .name _ | .integer _ | .boolean _ | .unary _ _ | .binary _ _ _ | .function _ _
  | .call _ _ => True

def Node.TestsOperation : Node → Prop
  | expression e => e.TestsOperation
  | program _ | statement _ | block _ => True

/-- What the node itself contributes to a program that is printable. -/
def Node.Printable (n : Node) : Prop := n.Apart ∧ n.TestsOperation

theorem Node.printable_program (p : Program) :
    Printable (.program p) ↔ StandApart p.statements :=
  iff_of_eq (and_true _)

theorem Node.printable_statement (s : Statement) : Printable (.statement s) := ⟨trivial, trivial⟩

theorem Node.printable_block (b : Block) : Printable (.block b) ↔ StandApart b :=
  iff_of_eq (and_true _)

theorem Node.printable_expression (e : Expression) :
    Printable (.expression e) ↔ e.TestsOperation :=
  iff_of_eq (true_and _)

mutual

theorem Expression.printable_iff : (e : Expression) →
    (e.Printable ↔ ∀ n ∈ e.nodes, n.Printable)
  | .name _ | .integer _ | .boolean _ => by
      simp [Expression.Printable, Expression.nodes, Node.printable_expression,
        Expression.TestsOperation]
  | .unary _ operand => by
      simp only [Expression.Printable, Expression.nodes, List.forall_mem_cons,
        Node.printable_expression, Expression.TestsOperation, true_and, operand.printable_iff]
  | .binary left _ right => by
      simp only [Expression.Printable, Expression.nodes, List.cons_append, List.forall_mem_cons,
        List.forall_mem_append, Node.printable_expression, Expression.TestsOperation, true_and,
        left.printable_iff, right.printable_iff]
  | .conditional test yes none => by
      simp only [Expression.Printable, Expression.nodes, List.cons_append, List.forall_mem_cons,
        List.forall_mem_append, Node.printable_expression, Expression.TestsOperation,
        Node.printable_block, test.printable_iff, statementsPrintable_iff yes]
  | .conditional test yes (some no) => by
      simp only [Expression.Printable, Expression.nodes, List.cons_append, List.append_assoc,
        List.forall_mem_cons, List.forall_mem_append, Node.printable_expression,
        Expression.TestsOperation, Node.printable_block, test.printable_iff,
        statementsPrintable_iff yes, statementsPrintable_iff no, and_assoc]
  | .function _ body => by
      simp only [Expression.Printable, Expression.nodes, List.forall_mem_cons,
        Node.printable_expression, Expression.TestsOperation, true_and, Node.printable_block,
        statementsPrintable_iff body]
  | .call callee args => by
      simp only [Expression.Printable, Expression.nodes, List.cons_append, List.forall_mem_cons,
        List.forall_mem_append, Node.printable_expression, Expression.TestsOperation, true_and,
        callee.printable_iff, expressionsPrintable_iff args]

theorem Statement.printable_iff : (s : Statement) →
    (s.Printable ↔ ∀ n ∈ s.nodes, n.Printable)
  | .binding _ value | .returning value | .expression value => by
      simp only [Statement.Printable, Statement.nodes, List.forall_mem_cons,
        Node.printable_statement, true_and, value.printable_iff]

theorem statementsPrintable_iff : (ss : List Statement) →
    (StatementsPrintable ss ↔ StandApart ss ∧ ∀ n ∈ statementNodes ss, n.Printable)
  | [] => by simp [StatementsPrintable, StandApart, statementNodes]
  | s :: ss => by
      rw [StatementsPrintable, StandApart, statementNodes, List.forall_mem_append, s.printable_iff,
        statementsPrintable_iff ss]
      grind

theorem expressionsPrintable_iff : (es : List Expression) →
    (ExpressionsPrintable es ↔ ∀ n ∈ expressionNodes es, n.Printable)
  | [] => by simp [ExpressionsPrintable, expressionNodes]
  | e :: es => by
      rw [ExpressionsPrintable, expressionNodes, List.forall_mem_append, e.printable_iff,
        expressionsPrintable_iff es]

end

theorem Program.printable_iff (p : Program) : p.Printable ↔ ∀ n ∈ p.nodes, n.Printable := by
  rw [Printable, nodes, List.forall_mem_cons, Node.printable_program,
    statementsPrintable_iff p.statements]

end MonkeyLang
