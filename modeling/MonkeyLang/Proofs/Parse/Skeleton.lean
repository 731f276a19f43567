import MonkeyLang.Proofs.Grammar.Nesting
import MonkeyLang.Proofs.Parse.Characterization

/-!
Nothing of a text is lost, doubled or moved when a program is built from it. A program has a
skeleton: its words, operators, integers, commas and braces from left to right. The tokens of a text
are its skeleton with properly nested parentheses and with semicolons; integers are compared by
their values, because leading zeros leave no trace.
-/
namespace MonkeyLang

/-- A token of a skeleton. -/
inductive Atom where
  | token (t : Token)
  | integer (value : Int)
  deriving DecidableEq, Repr

def bracedAtoms (inner : List Atom) : List Atom :=
  .token (.symbol '\x7b') :: inner ++ [.token (.symbol '\x7d')]

def separatedAtoms (items : List (List Atom)) : List Atom :=
  [.token (.symbol ',')].intercalate items

mutual

def Expression.skeleton : Expression → List Atom
  | .name text => [.token (.name text)]
  | .integer value => [.integer value.toInt]
  | .boolean value => [.token (.keyword (.ofBool value))]
  | .unary op operand => .token op.token :: operand.skeleton
  | .binary left op right => left.skeleton ++ .token op.token :: right.skeleton
  | .conditional test yes none =>
      .token (.keyword .ifWord) :: test.skeleton ++ bracedAtoms (statementsSkeleton yes)
  | .conditional test yes (some no) =>
      .token (.keyword .ifWord) :: test.skeleton ++ bracedAtoms (statementsSkeleton yes) ++
        .token (.keyword .elseWord) :: bracedAtoms (statementsSkeleton no)
  | .function params body =>
      .token (.keyword .fnWord) :: separatedAtoms (params.map fun p => [.token (.name p)]) ++
        bracedAtoms (statementsSkeleton body)
  | .call callee args => callee.skeleton ++ separatedAtoms (skeletons args)

def Statement.skeleton : Statement → List Atom
  | .binding name value =>
      .token (.keyword .letWord) :: .token (.name name) :: .token (.symbol '=') :: value.skeleton
  | .returning value => .token (.keyword .returnWord) :: value.skeleton
  | .expression value => value.skeleton

def statementsSkeleton : List Statement → List Atom
  | [] => []
  | s :: ss => s.skeleton ++ statementsSkeleton ss

def skeletons : List Expression → List (List Atom)
  | [] => []
  | e :: es => e.skeleton :: skeletons es

end

def Program.skeleton (p : Program) : List Atom := statementsSkeleton p.statements

def Token.atom : Token → Atom
  | numeral digits => .integer (numeralValue digits.toList)
  | t => .token t

/-- Whether the token leaves no trace in a skeleton. -/
def Token.isScaffold (t : Token) : Bool := t = symbol '(' || t = symbol ')' || t = symbol ';'

/-- The atoms of a text with these tokens. -/
def atoms (ts : List Token) : List Atom := (ts.filter (!·.isScaffold)).map Token.atom

@[simp] theorem atoms_nil : atoms [] = [] := rfl

@[simp] theorem atoms_append (ts us : List Token) : atoms (ts ++ us) = atoms ts ++ atoms us := by
  simp [atoms]

theorem atoms_cons {t : Token} (ts : List Token) (h : t.isScaffold = false) :
    atoms (t :: ts) = t.atom :: atoms ts := by
  simp [atoms, h]

@[simp] theorem atoms_keyword (k : Keyword) (ts : List Token) :
    atoms (.keyword k :: ts) = .token (.keyword k) :: atoms ts :=
  atoms_cons ts rfl

@[simp] theorem atoms_name (text : String) (ts : List Token) :
    atoms (.name text :: ts) = .token (.name text) :: atoms ts :=
  atoms_cons ts rfl

@[simp] theorem atoms_unary (op : UnaryOp) (ts : List Token) :
    atoms (op.token :: ts) = .token op.token :: atoms ts := by
  cases op <;> exact atoms_cons ts (by decide)

@[simp] theorem atoms_binary (op : BinaryOp) (ts : List Token) :
    atoms (op.token :: ts) = .token op.token :: atoms ts := by
  cases op <;> exact atoms_cons ts (by decide)

@[simp] theorem atoms_parenthesized (ts : List Token) : atoms (parenthesized ts) = atoms ts := by
  have hopen : atoms (.symbol '(' :: ts) = atoms ts := rfl
  have hclose : atoms [.symbol ')'] = [] := rfl
  rw [parenthesized, atoms_append, hopen, hclose, List.append_nil]

@[simp] theorem atoms_braced (ts : List Token) : atoms (braced ts) = bracedAtoms (atoms ts) := by
  have hopen : atoms (.symbol '\x7b' :: ts) = .token (.symbol '\x7b') :: atoms ts := rfl
  have hclose : atoms [.symbol '\x7d'] = [.token (.symbol '\x7d')] := rfl
  rw [braced, atoms_append, hopen, hclose, bracedAtoms]

@[simp] theorem atoms_ending (ended : Bool) : atoms (ending ended) = [] := by
  cases ended <;> rfl

@[simp] theorem atoms_separated (items : List (List Token)) :
    atoms (separated items) = separatedAtoms (items.map atoms) := by
  induction items with
  | nil => rfl
  | cons item items ih =>
      cases items with
      | nil => simp [separated, separatedAtoms]
      | cons next items =>
          have hcomma (ts : List Token) :
              atoms (.symbol ',' :: ts) = .token (.symbol ',') :: atoms ts := rfl
          rw [separated, atoms_append, hcomma, ih]
          · simp [separatedAtoms]
          · exact List.cons_ne_nil next items

mutual

theorem Phrase.atoms_tokens : (p : Phrase) → firstOversized p.tokens = none →
    atoms p.tokens = p.toExpression.skeleton
  | .name _, _ | .boolean _, _ => rfl
  | .numeral digits, h => by
      have hfits : isOversized digits.toList = false := by
        simpa [Phrase.tokens, Token.oversized?] using h
      -- The digits themselves are not in the skeleton: `007` and `7` have the same atom.
      change [Atom.integer (numeralValue digits.toList)] = _
      rw [← toInt_numeralValue hfits]
      rfl
  | .grouped inner, h => by
      simp only [Phrase.tokens, firstOversized_parenthesized] at h
      simp [Phrase.tokens, Phrase.toExpression, inner.atoms_tokens h]
  | .unary op operand, h => by
      have hoperand : firstOversized operand.tokens = none := by simpa [Phrase.tokens] using h
      simp [Phrase.tokens, Phrase.toExpression, Expression.skeleton, operand.atoms_tokens hoperand]
  | .binary left op right, h => by
      obtain ⟨hleft, hright⟩ : firstOversized left.tokens = none ∧
          firstOversized right.tokens = none := by
        simpa [Phrase.tokens] using h
      simp [Phrase.tokens, Phrase.toExpression, Expression.skeleton, left.atoms_tokens hleft,
        right.atoms_tokens hright]
  | .conditional test yes none, h => by
      obtain ⟨htest, hyes⟩ : firstOversized test.tokens = none ∧
          firstOversized (clauseTokens yes) = none := by
        simpa [Phrase.tokens, Token.oversized?] using h
      simp [Phrase.tokens, Phrase.toExpression, Expression.skeleton, test.atoms_tokens htest,
        atoms_clauseTokens yes hyes]
  | .conditional test yes (some no), h => by
      obtain ⟨htest, hyes, hno⟩ : firstOversized test.tokens = none ∧
          firstOversized (clauseTokens yes) = none ∧ firstOversized (clauseTokens no) = none := by
        simpa [Phrase.tokens, Token.oversized?] using h
      simp [Phrase.tokens, Phrase.toExpression, Expression.skeleton, test.atoms_tokens htest,
        atoms_clauseTokens yes hyes, atoms_clauseTokens no hno]
  | .function params body, h => by
      have hbody : firstOversized (clauseTokens body) = none := by
        simpa [Phrase.tokens, Token.oversized?, firstOversized_names] using h
      simp [Phrase.tokens, Phrase.toExpression, Expression.skeleton, atoms_clauseTokens body hbody,
        Function.comp_def]
  | .call callee args, h => by
      obtain ⟨hcallee, hargs⟩ : firstOversized callee.tokens = none ∧
          firstOversized (phraseTokens args).flatten = none := by
        simpa [Phrase.tokens, firstOversized_separated] using h
      simp [Phrase.tokens, Phrase.toExpression, Expression.skeleton, callee.atoms_tokens hcallee,
        atoms_phraseTokens args hargs]

theorem Clause.atoms_tokens : (c : Clause) → firstOversized c.tokens = none →
    atoms c.tokens = c.toStatement.skeleton
  | .binding name value ended, h => by
      have hvalue : firstOversized value.tokens = none := by
        simpa [Clause.tokens, Token.oversized?] using h
      have hequals (ts : List Token) :
          atoms (.symbol '=' :: ts) = .token (.symbol '=') :: atoms ts := rfl
      simp [Clause.tokens, Clause.toStatement, Statement.skeleton, hequals,
        value.atoms_tokens hvalue]
  | .returning value ended, h => by
      have hvalue : firstOversized value.tokens = none := by
        simpa [Clause.tokens, Token.oversized?] using h
      simp [Clause.tokens, Clause.toStatement, Statement.skeleton, value.atoms_tokens hvalue]
  | .expression value ended, h => by
      have hvalue : firstOversized value.tokens = none := by simpa [Clause.tokens] using h
      simp [Clause.tokens, Clause.toStatement, Statement.skeleton, value.atoms_tokens hvalue]

theorem atoms_clauseTokens : (cs : List Clause) → firstOversized (clauseTokens cs) = none →
    atoms (clauseTokens cs) = statementsSkeleton (toStatements cs)
  | [], _ => rfl
  | c :: cs, h => by
      obtain ⟨hc, hcs⟩ : firstOversized c.tokens = none ∧
          firstOversized (clauseTokens cs) = none := by
        simpa [clauseTokens] using h
      simp [clauseTokens, toStatements, statementsSkeleton, c.atoms_tokens hc,
        atoms_clauseTokens cs hcs]

theorem atoms_phraseTokens : (ps : List Phrase) →
    firstOversized (phraseTokens ps).flatten = none →
    (phraseTokens ps).map atoms = skeletons (toExpressions ps)
  | [], _ => rfl
  | p :: ps, h => by
      obtain ⟨hp, hps⟩ : firstOversized p.tokens = none ∧
          firstOversized (phraseTokens ps).flatten = none := by
        simpa [phraseTokens] using h
      simp [phraseTokens, toExpressions, skeletons, p.atoms_tokens hp, atoms_phraseTokens ps hps]

end

namespace Program

/-- A text that is read has properly nested brackets and the skeleton of its program. -/
theorem parse_skeleton (text : String) (p : Program) (h : parse text = .ok p) :
    nestedFrom [] (tokensOf text.toList) = true ∧ atoms (tokensOf text.toList) = p.skeleton := by
  obtain ⟨⟨report, hreport⟩, -⟩ | ⟨cs, -, htokens, hparse⟩ := parse_cases text
  · rw [hreport] at h
    cases h
  · rw [hparse, inRange] at h
    cases hfits : firstOversized (clauseTokens cs) with
    | some digits =>
        rw [hfits] at h
        cases h
    | none =>
        rw [hfits] at h
        cases h
        refine ⟨?_, htokens ▸ atoms_clauseTokens cs hfits⟩
        rw [htokens, ← List.append_nil (clauseTokens cs), balanced_clauseTokens cs]
        rfl

theorem parse_skeleton_sum :
    parse "let a = (01 + b);" =
        .ok ⟨[.binding "a" (.binary (.integer 1) .add (.name "b"))]⟩ ∧
      nestedFrom [] (tokensOf "let a = (01 + b);".toList) = true ∧
      atoms (tokensOf "let a = (01 + b);".toList) =
        Program.skeleton ⟨[.binding "a" (.binary (.integer 1) .add (.name "b"))]⟩ := by
  have h : parse "let a = (01 + b);" =
      .ok ⟨[.binding "a" (.binary (.integer 1) .add (.name "b"))]⟩ := by
    have hcs : ClausesWellFormed
        [.binding "a" (.grouped (.binary (.numeral "01") .add (.name "b"))) true] := by
      simp [ClausesWellFormed, Clause.WellFormed, Phrase.WellFormed, Phrase.precedence,
        Clause.ended, BinaryOp.level, Level.rank]
    rw [parse_eq_inRange hcs (by decide +kernel), inRange_of_none (by decide +kernel)]
    rfl
  exact ⟨h, parse_skeleton _ _ h⟩

end Program
end MonkeyLang
