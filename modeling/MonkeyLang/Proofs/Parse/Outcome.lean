import MonkeyLang.Program.Node
import MonkeyLang.Proofs.Parse.Characterization

/-!
Which outcome a text has, told by its numerals. A text that does not follow the grammar is
malformed, whatever numerals it holds. Any other text fails with the first numeral that is too
large, or else it has a program, and the integers of that program are the values of the numerals
one by one.
-/
namespace MonkeyLang

/-- The text follows the grammar. -/
def Grammatical (text : String) : Prop := (Cursor.start text.toList).program.outcome.isSome = true

def Token.numeral? : Token → Option String
  | numeral digits => some digits
  | keyword _ | name _ | equal | notEqual | symbol _ => none

/-- The digits of the numerals among some tokens. -/
def numerals (ts : List Token) : List String := ts.filterMap Token.numeral?

def Node.integer? : Node → Option Int64
  | expression (.integer value) => some value
  | program _ | statement _ | block _ | expression _ => none

/-- The values of the integers among some nodes. -/
def integersOf (nodes : List Node) : List Int64 := nodes.filterMap Node.integer?

/-- The integers of a program in the order in which they are written. -/
def Program.integers (p : Program) : List Int64 := integersOf p.nodes

theorem grammatical_iff (text : String) :
    Grammatical text ↔ ∃ cs, ClausesWellFormed cs ∧ tokensOf text.toList = clauseTokens cs := by
  rw [Grammatical, Option.isSome_iff_exists]
  constructor
  · rintro ⟨found, h⟩
    exact Cursor.exists_clauses_of_program h
  · rintro ⟨cs, hcs, ht⟩
    obtain ⟨ps, whole, ending, d, h, -⟩ := Cursor.exists_program hcs (c := .start text.toList) ht
    exact ⟨_, h⟩

@[simp] theorem numerals_nil : numerals [] = [] := rfl

@[simp] theorem numerals_append (ts us : List Token) :
    numerals (ts ++ us) = numerals ts ++ numerals us :=
  List.filterMap_append

theorem numerals_cons {t : Token} (h : t.numeral? = none) (ts : List Token) :
    numerals (t :: ts) = numerals ts :=
  List.filterMap_cons_none h

@[simp] theorem numerals_unary (op : UnaryOp) (ts : List Token) :
    numerals (op.token :: ts) = numerals ts :=
  numerals_cons (by cases op <;> rfl) ts

@[simp] theorem numerals_binary (op : BinaryOp) (ts : List Token) :
    numerals (op.token :: ts) = numerals ts :=
  numerals_cons (by cases op <;> rfl) ts

@[simp] theorem numerals_keyword (k : Keyword) (ts : List Token) :
    numerals (.keyword k :: ts) = numerals ts :=
  numerals_cons rfl ts

@[simp] theorem numerals_name (text : String) (ts : List Token) :
    numerals (.name text :: ts) = numerals ts :=
  numerals_cons rfl ts

@[simp] theorem numerals_symbol (ch : Char) (ts : List Token) :
    numerals (.symbol ch :: ts) = numerals ts :=
  numerals_cons rfl ts

@[simp] theorem numerals_parenthesized (ts : List Token) :
    numerals (parenthesized ts) = numerals ts := by
  simp [parenthesized]

@[simp] theorem numerals_braced (ts : List Token) : numerals (braced ts) = numerals ts := by
  simp [braced]

@[simp] theorem numerals_ending (ended : Bool) : numerals (ending ended) = [] := by
  cases ended <;> rfl

@[simp] theorem numerals_separated (items : List (List Token)) :
    numerals (separated items) = items.flatMap numerals := by
  induction items with
  | nil => rfl
  | cons item items ih =>
      cases items with
      | nil => simp [separated]
      | cons next items => simp [separated, ih]

theorem numerals_names (names : List String) :
    numerals (separated (names.map ([.name ·]))) = [] := by
  simp [List.flatMap_map]

/-- The first numeral that is too large is the first token that is too large. -/
theorem firstOversized_eq_find? (ts : List Token) :
    firstOversized ts = (numerals ts).find? (Nat.pow 2 63 ≤ numeralValue ·.toList) := by
  induction ts with
  | nil => rfl
  | cons t ts ih =>
      rw [firstOversized_cons, ih]
      cases t with
      | numeral digits =>
          have hnumerals : numerals (.numeral digits :: ts) = digits :: numerals ts := rfl
          rw [hnumerals, List.find?_cons, Token.oversized?, isOversized]
          cases decide (Nat.pow 2 63 ≤ numeralValue digits.toList) <;> rfl
      | keyword _ | name _ | equal | notEqual | symbol _ => rfl

theorem firstOversized_eq_none_iff (ts : List Token) :
    firstOversized ts = none ↔ ∀ digits ∈ numerals ts, numeralValue digits.toList < Nat.pow 2 63 := by
  rw [firstOversized_eq_find?, List.find?_eq_none]
  simp only [decide_eq_true_eq, Nat.not_le]

/-- The integers that numerals denote. -/
def values (digits : List String) : List Int64 :=
  digits.map fun d => Int64.ofNat (numeralValue d.toList)

@[simp] theorem values_append (ds es : List String) :
    values (ds ++ es) = values ds ++ values es :=
  List.map_append

@[simp] theorem integersOf_append (ns ms : List Node) :
    integersOf (ns ++ ms) = integersOf ns ++ integersOf ms :=
  List.filterMap_append

theorem integersOf_cons {n : Node} (h : n.integer? = none) (ns : List Node) :
    integersOf (n :: ns) = integersOf ns :=
  List.filterMap_cons_none h

@[simp] theorem integersOf_block (b : Block) (ns : List Node) :
    integersOf (.block b :: ns) = integersOf ns :=
  integersOf_cons rfl ns

@[simp] theorem integersOf_statement (s : Statement) (ns : List Node) :
    integersOf (.statement s :: ns) = integersOf ns :=
  integersOf_cons rfl ns

mutual

theorem Phrase.integersOf_nodes : (p : Phrase) →
    integersOf p.toExpression.nodes = values (numerals p.tokens)
  | .name _ | .numeral _ | .boolean _ => rfl
  | .grouped inner => by
      simp [Phrase.toExpression, Phrase.tokens, inner.integersOf_nodes]
  | .unary op operand => by
      rw [Phrase.toExpression, Expression.nodes, integersOf_cons rfl, operand.integersOf_nodes]
      simp [Phrase.tokens]
  | .binary left op right => by
      rw [Phrase.toExpression, Expression.nodes, List.cons_append, integersOf_cons rfl]
      simp [Phrase.tokens, left.integersOf_nodes, right.integersOf_nodes]
  | .conditional test yes none => by
      rw [Phrase.toExpression, Expression.nodes, List.cons_append, integersOf_cons rfl]
      simp [Phrase.tokens, test.integersOf_nodes, integersOf_statementNodes yes]
  | .conditional test yes (some no) => by
      rw [Phrase.toExpression, Expression.nodes]
      simp only [List.cons_append, List.append_assoc]
      rw [integersOf_cons rfl]
      simp [Phrase.tokens, test.integersOf_nodes, integersOf_statementNodes yes,
        integersOf_statementNodes no]
  | .function params body => by
      rw [Phrase.toExpression, Expression.nodes, integersOf_cons rfl]
      simp only [Phrase.tokens, integersOf_block, integersOf_statementNodes body,
        List.cons_append, numerals_keyword, numerals_append, numerals_parenthesized,
        numerals_names, numerals_braced, List.nil_append]
  | .call callee args => by
      rw [Phrase.toExpression, Expression.nodes, List.cons_append, integersOf_cons rfl]
      simp [Phrase.tokens, callee.integersOf_nodes, integersOf_expressionNodes args]

theorem Clause.integersOf_nodes : (c : Clause) →
    integersOf c.toStatement.nodes = values (numerals c.tokens)
  | .binding _ value _ | .returning value _ | .expression value _ => by
      simp [Clause.toStatement, Statement.nodes, Clause.tokens, value.integersOf_nodes]

theorem integersOf_statementNodes : (cs : List Clause) →
    integersOf (statementNodes (toStatements cs)) = values (numerals (clauseTokens cs))
  | [] => rfl
  | c :: cs => by
      simp [toStatements, statementNodes, clauseTokens, c.integersOf_nodes,
        integersOf_statementNodes cs]

theorem integersOf_expressionNodes : (ps : List Phrase) →
    integersOf (expressionNodes (toExpressions ps)) = values ((phraseTokens ps).flatMap numerals)
  | [] => rfl
  | p :: ps => by
      simp [toExpressions, expressionNodes, phraseTokens, p.integersOf_nodes,
        integersOf_expressionNodes ps]

end

/-- Integers that fit are the values of their digits. -/
theorem toInt_values {ds : List String} (h : ∀ d ∈ ds, numeralValue d.toList < Nat.pow 2 63) :
    (values ds).map Int64.toInt = ds.map fun d => (numeralValue d.toList : Int) := by
  rw [values, List.map_map]
  exact List.map_congr_left fun d hd => Int64.toInt_ofNat_of_lt (h d hd)

namespace Program

theorem integers_toStatements (cs : List Clause) :
    integers ⟨toStatements cs⟩ = values (numerals (clauseTokens cs)) := by
  rw [integers, nodes, integersOf_cons rfl, integersOf_statementNodes]

/-- What a text of the grammar denotes, up to its first numeral that is too large. -/
theorem parse_of_grammatical {text : String} (h : Grammatical text) :
    ∃ p : Program, p.integers = values (numerals (tokensOf text.toList)) ∧
      parse text = inRange (tokensOf text.toList) p := by
  obtain ⟨cs, hcs, ht⟩ := (grammatical_iff text).mp h
  refine ⟨⟨toStatements cs⟩, ?_, ?_⟩
  · rw [ht, integers_toStatements]
  · rw [ht, parse_eq_inRange hcs ht]

theorem malformed_iff (text : String) :
    (∃ report, parse text = .error (.malformed report)) ↔ ¬ Grammatical text := by
  constructor
  · rintro ⟨report, hreport⟩ h
    obtain ⟨p, -, hp⟩ := parse_of_grammatical h
    rw [hreport, inRange] at hp
    split at hp <;> cases hp
  · intro h
    rcases parse_cases text with ⟨hreport, -⟩ | ⟨cs, hcs, ht, -⟩
    · exact hreport
    · exact absurd ((grammatical_iff text).mpr ⟨cs, hcs, ht⟩) h

theorem grammatical_of_parse {text : String} {result : Except ParseError Program}
    (h : parse text = result) (hresult : ∀ report, result ≠ .error (.malformed report)) :
    Grammatical text := by
  refine Classical.byContradiction fun hnot => ?_
  obtain ⟨report, hreport⟩ := (malformed_iff text).mpr hnot
  exact hresult report (h.symm.trans hreport)

theorem integerOutOfRange_iff (text digits : String) :
    parse text = .error (.integerOutOfRange digits) ↔
      Grammatical text ∧ firstOversized (tokensOf text.toList) = some digits := by
  constructor
  · intro h
    have hgrammatical := grammatical_of_parse h (by simp)
    obtain ⟨p, -, hp⟩ := parse_of_grammatical hgrammatical
    exact ⟨hgrammatical, inRange_eq_error_iff.mp (hp.symm.trans h)⟩
  · rintro ⟨hgrammatical, hfirst⟩
    obtain ⟨p, -, hp⟩ := parse_of_grammatical hgrammatical
    exact hp.trans (inRange_eq_error_iff.mpr hfirst)

/-- A text has exactly one of three outcomes, and its numerals decide between the last two. -/
theorem parse_outcome (text : String) :
    ((∃ report, parse text = .error (.malformed report)) ↔ ¬ Grammatical text) ∧
    (∀ digits, parse text = .error (.integerOutOfRange digits) ↔
      Grammatical text ∧
        (numerals (tokensOf text.toList)).find? (Nat.pow 2 63 ≤ numeralValue ·.toList) = some digits) ∧
    ((∃ p, parse text = .ok p) ↔
      Grammatical text ∧
        ∀ digits ∈ numerals (tokensOf text.toList), numeralValue digits.toList < Nat.pow 2 63) ∧
    ∀ p, parse text = .ok p → p.integers.map Int64.toInt =
      (numerals (tokensOf text.toList)).map fun digits => (numeralValue digits.toList : Int) := by
  refine ⟨malformed_iff text, fun digits => ?_, ⟨?_, ?_⟩, ?_⟩
  · rw [integerOutOfRange_iff, firstOversized_eq_find?]
  · rintro ⟨q, hq⟩
    have h := grammatical_of_parse hq (by simp)
    obtain ⟨p, -, hp⟩ := parse_of_grammatical h
    obtain ⟨hfits, -⟩ := inRange_eq_ok_iff.mp (hp.symm.trans hq)
    exact ⟨h, (firstOversized_eq_none_iff _).mp hfits⟩
  · rintro ⟨h, hfits⟩
    obtain ⟨p, -, hp⟩ := parse_of_grammatical h
    exact ⟨p, hp.trans (inRange_of_none ((firstOversized_eq_none_iff _).mpr hfits) p)⟩
  · intro q hq
    obtain ⟨p, hvalues, hp⟩ := parse_of_grammatical (grammatical_of_parse hq (by simp))
    obtain ⟨hfits, rfl⟩ := inRange_eq_ok_iff.mp (hp.symm.trans hq)
    rw [hvalues, toInt_values ((firstOversized_eq_none_iff _).mp hfits)]

end Program
end MonkeyLang
