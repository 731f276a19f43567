import MonkeyLang.Proofs.Journal.Mirror
import MonkeyLang.Proofs.Parse.Outcome
import MonkeyLang.Proofs.Parse.Weight

/-!
What the journal of a whole text tells. Its lines are well bracketed, also where an integer is too
large: they end with that integer then, and the statements that are still open are those around it.
-/
namespace MonkeyLang

open Piece

/-- The role of a node that a landmark stands for. -/
def Node.landmark? : Node → Option Role
  | statement _ => some .statement
  | expression (.integer _) => some .integer
  | program _ | block _ | expression _ => none

def rolesOf (nodes : List Node) : List Role := nodes.filterMap Node.landmark?

@[simp] theorem rolesOf_append (ns ms : List Node) : rolesOf (ns ++ ms) = rolesOf ns ++ rolesOf ms :=
  List.filterMap_append

@[simp] theorem rolesOf_statement (s : Statement) (ns : List Node) :
    rolesOf (.statement s :: ns) = .statement :: rolesOf ns :=
  rfl

@[simp] theorem rolesOf_block (b : Block) (ns : List Node) :
    rolesOf (.block b :: ns) = rolesOf ns :=
  rfl

@[simp] theorem rolesOf_expression {e : Expression} (h : ∀ value, e ≠ .integer value)
    (ns : List Node) : rolesOf (.expression e :: ns) = rolesOf ns := by
  refine List.filterMap_cons_none ?_
  cases e with
  | integer value => exact absurd rfl (h value)
  | name _ | boolean _ | unary _ _ | binary _ _ _ | conditional _ _ _ | function _ _ | call _ _ => rfl

def Part.nodes : Part → List Node
  | phrase _ p | operands _ p | calls p => p.toExpression.nodes
  | items ps => expressionNodes (toExpressions ps)
  | block cs | clauses cs => statementNodes (toStatements cs)
  | clause c => c.toStatement.nodes

theorem rolesOf_signed (ops : List UnaryOp) (e : Expression) :
    rolesOf (ops.foldr Expression.unary e).nodes = rolesOf e.nodes := by
  induction ops with
  | nil => rfl
  | cons op ops ih => simp [Expression.nodes, ih]

theorem Tree.roles_eq {part : Part} {ps : List Piece} (h : Tree part ps) (around : List Piece) :
    (landmarksOf around ps).map Landmark.role = rolesOf part.nodes := by
  induction h generalizing around with
  | name text => rfl
  | numeral digits => rfl
  | boolean value => rfl
  | grouped inner ih => exact ih around
  | function names htext body ih =>
      simp [landmarks, Rule.isStatement, Keyword.piece, landmarksOf_names, ih, Part.nodes,
        Phrase.toExpression, Expression.nodes]
  | ifThen htext test yes ihp ihcs =>
      simp [landmarks, Rule.isStatement, Keyword.piece, ihp, ihcs, Part.nodes, Phrase.toExpression,
        Expression.nodes]
  | ifThenElse htext test yes no ihp ihcs ihds =>
      simp [landmarks, Rule.isStatement, Keyword.piece, ihp, ihcs, ihds, Part.nodes,
        Phrase.toExpression, Expression.nodes]
  | callee first ih => exact ih around
  | call text callee list ihp ihargs =>
      simp [landmarks, Rule.isStatement, ihp, ihargs, Part.nodes, Phrase.toExpression,
        Expression.nodes]
  | called htext calls ih => simp [landmarks, Rule.isStatement, ih, Part.nodes]
  | signed ops htext operand ih =>
      simp [landmarks, Rule.isStatement, landmarksOf_signs, ih, Part.nodes,
        Phrase.toExpression_signed, rolesOf_signed]
  | operand first ih => exact ih around
  | operation left right ihp ihq =>
      simp [ihp, ihq, Part.nodes, Phrase.toExpression, Expression.nodes]
  | @level l p text ps htext operands ih =>
      have hinner := ih around
      cases l <;> simpa [landmarks, Rule.isStatement, Level.rule, Part.nodes] using hinner
  | expression htext inner ih => simp [landmarks, Rule.isStatement, ih, Part.nodes]
  | noItem => rfl
  | item first more ihp ihps => simp [ihp, ihps, Part.nodes, toExpressions, expressionNodes]
  | block text body ih => simp [landmarks, Rule.isStatement, ih, Part.nodes]
  | binding htext value ih =>
      simp [landmarks, Rule.isStatement, Keyword.piece, ih, Part.nodes, Clause.toStatement,
        Statement.nodes, Landmark.role, rule]
  | returning htext value ih =>
      simp [landmarks, Rule.isStatement, Keyword.piece, ih, Part.nodes, Clause.toStatement,
        Statement.nodes, Landmark.role, rule]
  | evaluation htext value ih =>
      simp [landmarks, Rule.isStatement, ih, Part.nodes, Clause.toStatement, Statement.nodes,
        Landmark.role, rule]
  | noClause => rfl
  | clause first more ihc ihcs => simp [ihc, ihcs, Part.nodes, toStatements, statementNodes]

theorem count_statement_rolesOf (ns : List Node) :
    (rolesOf ns).count .statement = statementsOf ns := by
  rw [rolesOf, List.count_filterMap, statementsOf]
  refine List.countP_congr fun n _ => ?_
  cases n with
  | program _ | statement _ | block _ => simp [Node.landmark?, Node.isStatement]
  | expression e => cases e <;> simp [Node.landmark?, Node.isStatement]

theorem count_integer_rolesOf (ns : List Node) :
    (rolesOf ns).count .integer = (integersOf ns).length := by
  rw [rolesOf, List.count_filterMap, integersOf, List.length_filterMap_eq_countP]
  refine List.countP_congr fun n _ => ?_
  cases n with
  | program _ | statement _ | block _ => simp [Node.landmark?, Node.integer?]
  | expression e => cases e <;> simp [Node.landmark?, Node.integer?]

/-- The line is made before something is built in a role. -/
def Entry.enters (role : Role) : Entry → Bool
  | entered role' _ _ => decide (role' = role)
  | completed _ | refused | counted _ => false

theorem countP_enters {role : Role} (hrole : role = .statement ∨ role = .integer)
    (es : List Entry) : es.countP (Entry.enters role) = (es.filterMap Entry.landmark?).count role := by
  rw [List.count_filterMap]
  refine List.countP_congr fun e _ => ?_
  cases e with
  | entered role' _ _ =>
      simp only [Entry.enters, Entry.landmark?, decide_eq_true_eq, beq_iff_eq]
      split
      · rw [Option.some.injEq]
      · next hother =>
          refine iff_of_false ?_ (by simp)
          rintro rfl
          exact hother hrole
  | completed _ | refused | counted _ => simp [Entry.enters, Entry.landmark?]

namespace Program

open Building

theorem exists_tree_of_grammatical {text : String} (h : Grammatical text) :
    ∃ cs ps whole ending d, ClausesWellFormed cs ∧ tokensOf text.toList = clauseTokens cs ∧
      Tree (.clauses cs) ps ∧ (Cursor.start text.toList).program.outcome =
        some ([.mk .program whole (ps ++ [.mk .endOfInput ending []])], d) := by
  obtain ⟨cs, hcs, ht⟩ := (grammatical_iff text).mp h
  obtain ⟨ps, whole, ending, d, hread, htree⟩ :=
    Cursor.exists_program hcs (c := .start text.toList) ht
  exact ⟨cs, ps, whole, ending, d, hcs, ht, htree, hread⟩

theorem landmarksIn_eq {text : String} {whole ending : List Char} {ps : List Piece} {d : Cursor}
    (h : (Cursor.start text.toList).program.outcome =
      some ([.mk .program whole (ps ++ [.mk .endOfInput ending []])], d)) :
    landmarksIn text = landmarksOf [] ps := by
  rw [landmarksIn, h]
  simp [landmarks, Rule.isStatement]

theorem roles_landmarksIn {text : String} {p : Program} (h : parse text = .ok p) :
    (landmarksIn text).map Landmark.role = rolesOf p.nodes := by
  have hgrammatical := grammatical_of_parse h (by simp)
  obtain ⟨cs, ps, whole, ending, d, hcs, ht, htree, hread⟩ :=
    exists_tree_of_grammatical hgrammatical
  obtain ⟨-, rfl⟩ := inRange_eq_ok_iff.mp ((parse_eq_inRange hcs ht).symm.trans h)
  rw [landmarksIn_eq hread, htree.roles_eq []]
  rfl

theorem mirrors_end (ending : List Char) :
    (Piece.toStatements [.mk .endOfInput ending []]).Mirrors [.mk .endOfInput ending []] := by
  rw [Piece.toStatements, if_pos (by rfl), Piece.toStatements]
  have hnone : ((pure [] : Building (List Statement)) >>= fun first =>
      (first ++ ·) <$> pure []).Mirrors ([] ++ []) :=
    (mirrors_pure _).bind fun _ => (mirrors_pure _).map _
  exact hnone.congr fun _ => rfl

/-- Building the statements of a text follows its landmarks, and then the statements are counted. -/
theorem exists_mirrors {text : String} (h : Grammatical text) :
    ∃ (b : Building (List Statement)) (ps : List Piece), b.Mirrors ps ∧
      landmarksIn text = landmarksOf [] ps ∧
      read text.toList = b >>= fun statements =>
        note (.counted statements.length) >>= fun _ => pure ⟨statements⟩ := by
  obtain ⟨cs, ps, whole, ending, d, -, -, htree, hread⟩ := exists_tree_of_grammatical h
  refine ⟨_, _, htree.mirrored _ (mirrors_end ending), ?_, ?_⟩
  · rw [landmarksIn_eq hread]
    simp [landmarks, Rule.isStatement]
  · rw [read, hread]
    rfl

variable {text : String}

/-- All that is opened is completed before the statements are counted. -/
theorem journal_of_ok {p : Program} (h : parse text = .ok p) :
    Runs (journal text) ⟨landmarksIn text, []⟩ ⟨[], []⟩ ∧
      (journal text).getLast? = some (.counted p.statements.length) := by
  obtain ⟨b, ps, hb, hmarks, hread⟩ := exists_mirrors (grammatical_of_parse h (by simp))
  rw [parse, hread] at h
  obtain ⟨statements, hstatements, hp⟩ := exists_of_bind h
  cases hp
  have hjournal : journal text = b.entries ++ [.counted statements.length] := by
    rw [journal, hread, entries_bind hstatements]
    rfl
  have hrun := (hb.finishes hstatements []).run []
  rw [List.append_nil] at hrun
  rw [hjournal, hmarks]
  exact ⟨hrun.append (Entry.Moves.counts _).runs, List.getLast?_concat⟩

/-- Nothing is completed behind the first integer that is too large. -/
theorem journal_of_integerOutOfRange {digits : String}
    (h : parse text = .error (.integerOutOfRange digits)) :
    ∃ m rest, (landmarksIn text).find? Landmark.isOversized = some m ∧
      m.piece.text = digits.toList ∧ Runs (journal text) ⟨landmarksIn text, []⟩ ⟨rest, m.around⟩ ∧
      (journal text).getLast? = some (.entered .integer .integer digits.toList) ∧
      ∀ n, .counted n ∉ journal text := by
  obtain ⟨b, ps, hb, hmarks, hread⟩ := exists_mirrors (grammatical_of_parse h (by simp))
  rw [parse, hread, outcome_bind] at h
  cases hout : b.outcome with
  | ok statements =>
      rw [hout] at h
      cases h
  | error e =>
      rw [hout] at h
      obtain ⟨m, rfl, hfirst, ⟨before, hbefore⟩, rest, hrun⟩ := hb.stops hout []
      cases h
      have hjournal : journal text = b.entries := by
        rw [journal, hread, entries_bind_of_error hout]
      rw [hjournal, hmarks]
      refine ⟨m, rest, hfirst, String.toList_ofList.symm, ?_, ?_, fun n => ?_⟩
      · have hwhole := hrun []
        rwa [List.append_nil, List.append_nil] at hwhole
      · rw [hbefore, String.toList_ofList, List.getLast?_concat]
      · exact (hrun [m]).not_mem_counted (by simp) n

/-- The lines of a journal are well bracketed. If the program is built, every statement and every
integer has a line and all statements are completed. Otherwise the last line is that of the integer
that is too large, and the statements around it are left open. -/
theorem journal_balanced (text : String) (h : Grammatical text) :
    ((∃ last, Runs (journal text) ⟨landmarksIn text, []⟩ last) ∧ .refused ∉ journal text) ∧
    (∀ p, parse text = .ok p →
      Runs (journal text) ⟨landmarksIn text, []⟩ ⟨[], []⟩ ∧
      (journal text).countP (Entry.enters .statement) = p.size ∧
      (journal text).countP (Entry.enters .integer) = p.integers.length ∧
      (journal text).getLast? = some (.counted p.statements.length)) ∧
    ∀ digits, parse text = .error (.integerOutOfRange digits) →
      ∃ m rest, (landmarksIn text).find? Landmark.isOversized = some m ∧
        m.piece.text = digits.toList ∧ Runs (journal text) ⟨landmarksIn text, []⟩ ⟨rest, m.around⟩ ∧
        (journal text).getLast? = some (.entered .integer .integer digits.toList) ∧
        ∀ n, .counted n ∉ journal text := by
  have hruns : ∃ last, Runs (journal text) ⟨landmarksIn text, []⟩ last := by
    obtain ⟨p, -, hp⟩ := parse_of_grammatical h
    rw [inRange] at hp
    split at hp
    · obtain ⟨m, rest, -, -, hrun, -⟩ := journal_of_integerOutOfRange hp
      exact ⟨_, hrun⟩
    · exact ⟨_, (journal_of_ok hp).1⟩
  refine ⟨⟨hruns, ?_⟩, fun p hp => ?_, fun digits hd => journal_of_integerOutOfRange hd⟩
  · obtain ⟨last, hrun⟩ := hruns
    exact hrun.not_mem_refused
  · obtain ⟨hrun, hlast⟩ := journal_of_ok hp
    have hroles : (journal text).filterMap Entry.landmark? = rolesOf p.nodes := by
      rw [← roles_landmarksIn hp, hrun.roles_eq, List.map_nil, List.append_nil]
    refine ⟨hrun, ?_, ?_, hlast⟩
    · rw [countP_enters (.inl rfl), hroles, count_statement_rolesOf, size]
    · rw [countP_enters (.inr rfl), hroles, count_integer_rolesOf, integers]

/-- The two statements around an integer that is too large are left open. -/
theorem journal_balanced_return :
    Grammatical "let a = fn() \x7b return 9223372036854775808; \x7d" ∧
    ∃ (m : Landmark) (rest : List Landmark),
      Runs (journal "let a = fn() \x7b return 9223372036854775808; \x7d")
        ⟨landmarksIn "let a = fn() \x7b return 9223372036854775808; \x7d", []⟩ ⟨rest, m.around⟩ ∧
      m.around.map Piece.rule = [.returnStatement, .letStatement] ∧
      m.piece.text = "9223372036854775808".toList := by
  have h : Grammatical "let a = fn() \x7b return 9223372036854775808; \x7d" := by
    rw [Grammatical]
    decide +kernel
  have haround : ((landmarksIn "let a = fn() \x7b return 9223372036854775808; \x7d").find?
      Landmark.isOversized).map (fun m => m.around.map Piece.rule) =
        some [.returnStatement, .letStatement] := by
    decide +kernel
  obtain ⟨m, rest, hfirst, htext, hrun, -⟩ := (journal_balanced _ h).2.2 "9223372036854775808"
    ((integerOutOfRange_iff _ _).mpr ⟨h, by decide +kernel⟩)
  rw [hfirst] at haround
  exact ⟨h, m, rest, hrun, Option.some.inj haround, htext⟩

end Program

end MonkeyLang
