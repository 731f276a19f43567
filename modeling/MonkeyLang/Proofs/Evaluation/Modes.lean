import MonkeyLang.Evaluation

/-!
The two modes of evaluation side by side. The strict mode does what the lenient one does up to the
first node without a rule and ends there with an error, so what it logs is what the lenient mode
logs before the first line that tells of such a node. The lenient mode goes on: it visits every
statement once and in order, and what it returns depends on the last statement alone.
-/
namespace MonkeyLang

/-- The lines that an evaluation logs. -/
def Evaluation.log (e : Evaluation) : List String := e.steps.map Step.line

def isDebugLine (line : String) : Bool := "DEBUG ".toList.isPrefixOf line.toList

def Step.isPassed : Step → Bool
  | entered _ => false
  | passed _ => true

namespace Statement

/-- Whether the statement has a value. -/
def isInteger : Statement → Bool
  | .expression (.integer _) => true
  | _ => false

/-- The kind that is reported if the statement has no value. -/
def reported : Statement → Kind
  | .expression value => value.kind
  | s => s.kind

def value? : Statement → Option Value
  | .expression (.integer v) => some (.integer v)
  | _ => none

/-- The nodes that are entered at a statement. -/
def entered : Statement → List Kind
  | .expression value => [.expressionStatement, value.kind]
  | s => [s.kind]

/-- What the lenient mode does at a statement: it enters the nodes, and if there is no value it
passes the one that has no rule. -/
def visit (s : Statement) : List Step :=
  s.entered.map .entered ++ if s.isInteger then [] else [.passed s.reported]

end Statement

theorem Step.isDebugLine_line (s : Step) : isDebugLine s.line = s.isPassed := by
  cases s with
  | entered kind =>
      unfold isDebugLine line
      simp [List.isPrefixOf, isPassed]
  | passed kind =>
      unfold isDebugLine line
      simp [List.isPrefixOf, isPassed]

theorem Evaluation.takeWhile_log (e : Evaluation) :
    e.log.takeWhile (!isDebugLine ·) = (e.steps.takeWhile (!·.isPassed)).map Step.line := by
  simp only [log, List.takeWhile_map, Function.comp_def, Step.isDebugLine_line]

theorem Evaluation.countP_log (e : Evaluation) :
    e.log.countP isDebugLine = e.steps.countP Step.isPassed := by
  simp only [log, List.countP_map, Function.comp_def, Step.isDebugLine_line]

namespace Statement

theorem evaluate_lenient (s : Statement) : s.evaluate .lenient = ⟨.ok s.value?, s.visit⟩ := by
  cases s with
  | binding name value => rfl
  | returning value => rfl
  | expression value => cases value <;> rfl

theorem evaluate_strict_of_isInteger {s : Statement} (h : s.isInteger = true) :
    s.evaluate .strict = s.evaluate .lenient := by
  cases s with
  | binding name value => cases h
  | returning value => cases h
  | expression value => cases value <;> first | rfl | cases h

theorem evaluate_strict_of_not_isInteger {s : Statement} (h : s.isInteger = false) :
    s.evaluate .strict = ⟨.error (.unsupported s.reported), s.entered.map .entered⟩ := by
  cases s with
  | binding name value => rfl
  | returning value => rfl
  | expression value => cases value <;> first | rfl | cases h

theorem isPassed_of_mem_entered {s : Statement} {step : Step} (h : step ∈ s.entered.map .entered) :
    step.isPassed = false := by
  obtain ⟨kind, -, rfl⟩ := List.mem_map.mp h
  rfl

theorem countP_visit (s : Statement) :
    s.visit.countP Step.isPassed = if s.isInteger then 0 else 1 := by
  have hentered : (s.entered.map .entered).countP Step.isPassed = 0 :=
    List.countP_eq_zero.mpr fun step hstep => by simp [isPassed_of_mem_entered hstep]
  rw [visit, List.countP_append, hentered]
  split <;> rfl

theorem visit_of_isInteger {s : Statement} (h : s.isInteger = true) :
    s.visit = s.entered.map .entered := by
  rw [visit, if_pos h, List.append_nil]

/-- Up to the first node without a rule, there is nothing but the nodes that are entered. -/
theorem takeWhile_visit_append (s : Statement) (steps : List Step) :
    (s.visit ++ steps).takeWhile (!·.isPassed) = s.entered.map .entered ++
      if s.isInteger then steps.takeWhile (!·.isPassed) else [] := by
  rw [visit, List.append_assoc, List.takeWhile_append_of_pos]
  · split <;> rfl
  · intro step hstep
    rw [isPassed_of_mem_entered hstep]
    rfl

theorem value?_eq_some_iff {s : Statement} {v : Int64} :
    s.value? = some (.integer v) ↔ s = .expression (.integer v) := by
  unfold value?
  split <;> simp_all

theorem value?_eq_none_iff {s : Statement} :
    s.value? = none ↔ ∀ v, s ≠ .expression (.integer v) := by
  unfold value?
  split <;> simp_all

end Statement

theorem Evaluation.andThen_ok (v : Option Value) (steps : List Step)
    (next : Option Value → Evaluation) :
    andThen ⟨.ok v, steps⟩ next = ⟨(next v).outcome, steps ++ (next v).steps⟩ :=
  rfl

theorem Evaluation.andThen_error (x : EvaluationError) (steps : List Step)
    (next : Option Value → Evaluation) : andThen ⟨.error x, steps⟩ next = ⟨.error x, steps⟩ :=
  rfl

theorem getLast?_cons_elim (last : Option Value) (s : Statement) (ss : List Statement) :
    (s :: ss).getLast?.elim last Statement.value? = ss.getLast?.elim s.value? Statement.value? := by
  cases ss with
  | nil => rfl
  | cons next ss =>
      have hlast := List.getLast?_eq_some_getLast (List.cons_ne_nil next ss)
      rw [List.getLast?_cons_cons, hlast]
      rfl

theorem evaluateStatements_lenient (last : Option Value) (ss : List Statement) :
    evaluateStatements .lenient last ss =
      ⟨.ok (ss.getLast?.elim last Statement.value?), ss.flatMap Statement.visit⟩ := by
  induction ss generalizing last with
  | nil => rfl
  | cons s ss ih =>
      rw [evaluateStatements, s.evaluate_lenient, Evaluation.andThen_ok, ih, List.flatMap_cons,
        getLast?_cons_elim]

/-- How the strict mode ends, and where its log stops. -/
theorem evaluateStatements_strict (last : Option Value) (ss : List Statement) :
    evaluateStatements .strict last ss =
      ⟨match ss.find? (!·.isInteger) with
        | none => .ok (ss.getLast?.elim last Statement.value?)
        | some s => .error (.unsupported s.reported),
      (ss.flatMap Statement.visit).takeWhile (!·.isPassed)⟩ := by
  induction ss generalizing last with
  | nil => rfl
  | cons s ss ih =>
      rw [evaluateStatements, List.flatMap_cons, s.takeWhile_visit_append, List.find?_cons]
      cases hs : s.isInteger with
      | true =>
          rw [Statement.evaluate_strict_of_isInteger hs, s.evaluate_lenient, Evaluation.andThen_ok,
            ih, s.visit_of_isInteger hs, getLast?_cons_elim]
          rfl
      | false =>
          rw [Statement.evaluate_strict_of_not_isInteger hs, Evaluation.andThen_error]
          simp

theorem countP_flatMap_visit (ss : List Statement) :
    (ss.flatMap Statement.visit).countP Step.isPassed = ss.countP (!·.isInteger) := by
  induction ss with
  | nil => rfl
  | cons s ss ih =>
      rw [List.flatMap_cons, List.countP_append, s.countP_visit, ih, List.countP_cons, Nat.add_comm]
      cases s.isInteger <;> rfl

namespace Program

theorem evaluate_lenient (p : Program) :
    p.evaluate .lenient = ⟨.ok (p.statements.getLast?.bind Statement.value?),
      .entered .program :: p.statements.flatMap Statement.visit⟩ := by
  rw [evaluate, evaluateStatements_lenient]
  cases p.statements.getLast? <;> rfl

theorem evaluate_strict (p : Program) :
    p.evaluate .strict = ⟨match p.statements.find? (!·.isInteger) with
        | none => .ok (p.statements.getLast?.bind Statement.value?)
        | some s => .error (.unsupported s.reported),
      (p.evaluate .lenient).steps.takeWhile (!·.isPassed)⟩ := by
  rw [evaluate, evaluateStatements_strict, evaluate_lenient]
  cases p.statements.getLast? <;> rfl

/-- An error is reported for the first statement without a value. -/
theorem outcome_strict_eq_error_iff (p : Program) (k : Kind) :
    (p.evaluate .strict).outcome = .error (.unsupported k) ↔
      ∃ s, p.statements.find? (!·.isInteger) = some s ∧ s.reported = k := by
  rw [evaluate_strict]
  cases p.statements.find? (!·.isInteger) <;> simp

theorem exists_strict_eq_error_iff (p : Program) :
    (∃ k, (p.evaluate .strict).outcome = .error (.unsupported k)) ↔
      ∃ s ∈ p.statements, s.isInteger = false := by
  simp only [outcome_strict_eq_error_iff]
  constructor
  · rintro ⟨-, s, hfind, -⟩
    exact ⟨s, List.mem_of_find?_eq_some hfind, by simpa using List.find?_some hfind⟩
  · rintro ⟨s, hmem, hs⟩
    have hsome : (p.statements.find? (!·.isInteger)).isSome = true :=
      List.find?_isSome.mpr ⟨s, hmem, by simp [hs]⟩
    obtain ⟨first, hfirst⟩ := Option.isSome_iff_exists.mp hsome
    exact ⟨first.reported, first, hfirst, rfl⟩

theorem countP_lenient (p : Program) :
    (p.evaluate .lenient).steps.countP Step.isPassed = p.statements.countP (!·.isInteger) := by
  rw [evaluate_lenient, List.countP_cons_of_neg (by simp [Step.isPassed]), countP_flatMap_visit]

theorem evaluate_lenient_of_strict {p : Program} {v : Option Value}
    (h : (p.evaluate .strict).outcome = .ok v) : p.evaluate .lenient = p.evaluate .strict := by
  rw [evaluate_strict] at h ⊢
  cases hfind : p.statements.find? (!·.isInteger) with
  | some s =>
      rw [hfind] at h
      cases h
  | none =>
      have hcount : (p.evaluate .lenient).steps.countP Step.isPassed = 0 := by
        rw [countP_lenient, List.countP_eq_zero]
        exact List.find?_eq_none.mp hfind
      have hpassed : ∀ step ∈ (p.evaluate .lenient).steps, (!step.isPassed) = true := by
        simpa using List.countP_eq_zero.mp hcount
      have hall : ((p.evaluate .lenient).steps ++ []).takeWhile (fun step => !step.isPassed) =
          (p.evaluate .lenient).steps ++ [] :=
        List.takeWhile_append_of_pos hpassed
      rw [List.append_nil] at hall
      rw [hall, evaluate_lenient]

theorem lenient_eq_some_iff (p : Program) (v : Int64) :
    (p.evaluate .lenient).outcome = .ok (some (.integer v)) ↔
      p.statements.getLast? = some (.expression (.integer v)) := by
  rw [evaluate_lenient, Except.ok.injEq, Option.bind_eq_some_iff]
  simp only [Statement.value?_eq_some_iff, exists_eq_right]

theorem lenient_eq_none_iff (p : Program) :
    (p.evaluate .lenient).outcome = .ok none ↔
      ∀ v, p.statements.getLast? ≠ some (.expression (.integer v)) := by
  rw [evaluate_lenient, Except.ok.injEq, Option.bind_eq_none_iff]
  simp only [Statement.value?_eq_none_iff]
  grind

end Program

namespace Node

@[simp] theorem evaluate_program (m : Mode) (p : Program) :
    (program p).evaluate m = p.evaluate m :=
  rfl

theorem exists_outcome_lenient (n : Node) : ∃ v, (n.evaluate .lenient).outcome = .ok v := by
  cases n with
  | program p => exact ⟨_, congrArg Evaluation.outcome p.evaluate_lenient⟩
  | statement s => exact ⟨_, congrArg Evaluation.outcome s.evaluate_lenient⟩
  | block b => exact ⟨none, rfl⟩
  | expression e => cases e <;> exact ⟨_, rfl⟩

theorem evaluate_lenient_of_strict {n : Node} {v : Option Value}
    (h : (n.evaluate .strict).outcome = .ok v) : n.evaluate .lenient = n.evaluate .strict := by
  cases n with
  | program p => exact p.evaluate_lenient_of_strict h
  | statement s =>
      cases hs : s.isInteger with
      | true => exact (s.evaluate_strict_of_isInteger hs).symm
      | false =>
          change (s.evaluate .strict).outcome = _ at h
          rw [Statement.evaluate_strict_of_not_isInteger hs] at h
          cases h
  | block b => cases h
  | expression e => cases e <;> first | rfl | cases h

end Node

/-- The strict mode is the lenient mode up to the first node without a rule. -/
theorem strict_cuts_lenient :
    (∀ n : Node, ∃ v, (n.evaluate .lenient).outcome = .ok v) ∧
    (∀ (n : Node) (v : Option Value), (n.evaluate .strict).outcome = .ok v →
      (n.evaluate .lenient).outcome = .ok v ∧
        (n.evaluate .lenient).log = (n.evaluate .strict).log) ∧
    ∀ p : Program,
      ((∃ k, ((Node.program p).evaluate .strict).outcome = .error (.unsupported k)) ↔
        ∃ s ∈ p.statements, s.isInteger = false) ∧
      (∀ k, ((Node.program p).evaluate .strict).outcome = .error (.unsupported k) ↔
        ∃ s, p.statements.find? (!·.isInteger) = some s ∧ s.reported = k) ∧
      ((Node.program p).evaluate .strict).log =
        ((Node.program p).evaluate .lenient).log.takeWhile (!isDebugLine ·) ∧
      ((Node.program p).evaluate .lenient).steps =
        .entered .program :: p.statements.flatMap Statement.visit ∧
      ((Node.program p).evaluate .lenient).log.countP isDebugLine =
        p.statements.countP (!·.isInteger) ∧
      (∀ v, ((Node.program p).evaluate .lenient).outcome = .ok (some (.integer v)) ↔
        p.statements.getLast? = some (.expression (.integer v))) ∧
      (((Node.program p).evaluate .lenient).outcome = .ok none ↔
        ∀ v, p.statements.getLast? ≠ some (.expression (.integer v))) := by
  refine ⟨Node.exists_outcome_lenient, fun n v h => ?_, fun p => ?_⟩
  · rw [Node.evaluate_lenient_of_strict h]
    exact ⟨h, rfl⟩
  · simp only [Node.evaluate_program]
    refine ⟨?_, p.outcome_strict_eq_error_iff, ?_, congrArg Evaluation.steps p.evaluate_lenient,
      ?_, p.lenient_eq_some_iff, p.lenient_eq_none_iff⟩
    · exact p.exists_strict_eq_error_iff
    · rw [Evaluation.takeWhile_log, Evaluation.log, p.evaluate_strict]
    · rw [Evaluation.countP_log, p.countP_lenient]

/-- The program is `5 let a = 1; 7`. -/
theorem strict_cuts_lenient_binding :
    (Node.evaluate .strict (.expression (.integer 5))).outcome = .ok (some (.integer 5)) ∧
      (Node.evaluate .lenient (.expression (.integer 5))).log =
        (Node.evaluate .strict (.expression (.integer 5))).log ∧
      (Node.evaluate .strict (.program ⟨[.expression (.integer 5), .binding "a" (.integer 1),
        .expression (.integer 7)]⟩)).outcome = .error (.unsupported .letStatement) ∧
      (Node.evaluate .lenient (.program ⟨[.expression (.integer 5), .binding "a" (.integer 1),
        .expression (.integer 7)]⟩)).outcome = .ok (some (.integer 7)) := by
  obtain ⟨-, hnodes, hprograms⟩ := strict_cuts_lenient
  obtain ⟨-, hreported, -, -, -, hlast, -⟩ := hprograms
    ⟨[.expression (.integer 5), .binding "a" (.integer 1), .expression (.integer 7)]⟩
  exact ⟨rfl, (hnodes (.expression (.integer 5)) _ rfl).2,
    (hreported .letStatement).mpr ⟨_, rfl, rfl⟩, (hlast 7).mpr rfl⟩

end MonkeyLang
