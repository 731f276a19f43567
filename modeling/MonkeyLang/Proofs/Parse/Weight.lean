import MonkeyLang.Proofs.Parse.Rendering

/-!
How much a program holds, counted node by node. The weight counts the keywords, the names, the
integers, the booleans and the operators. Each of these is a token of its own wherever it is
written, so the weight of a program is also that of the tokens of a text that denotes it, and of
those tokens that its rendering asks for.
-/
namespace MonkeyLang

/-- The keywords, names, integers, booleans and operators of the node itself. -/
def Node.weight : Node → Nat
  | expression e =>
      match e with
      | .name _ | .integer _ | .boolean _ | .unary _ _ | .binary _ _ _ => 1
      | .conditional _ _ none => 1
      | .conditional _ _ (some _) => 2
      | .function params _ => 1 + params.length
      | .call _ _ => 0
  | statement s =>
      match s with
      | .binding _ _ => 2
      | .returning _ => 1
      | .expression _ => 0
  | program _ | block _ => 0

def Node.isStatement : Node → Bool
  | statement _ => true
  | program _ | block _ | expression _ => false

def weightOf : List Node → Nat
  | [] => 0
  | n :: ns => n.weight + weightOf ns

/-- How many of the nodes are statements. -/
def statementsOf (ns : List Node) : Nat := ns.countP Node.isStatement

/-- The keywords, names, integers, booleans and operators of a program. -/
def Program.weight (p : Program) : Nat := weightOf p.nodes

/-- The statements of a program, nested ones included. -/
def Program.size (p : Program) : Nat := statementsOf p.nodes

def Token.weight : Token → Nat
  | keyword _ | name _ | numeral _ | equal | notEqual => 1
  | symbol c => if c ∈ ['+', '-', '*', '/', '<', '>', '!'] then 1 else 0

/-- The tokens that are no marks. -/
def weigh : List Token → Nat
  | [] => 0
  | t :: ts => t.weight + weigh ts

@[simp] theorem weigh_nil : weigh [] = 0 := rfl

@[simp] theorem weigh_cons (t : Token) (ts : List Token) :
    weigh (t :: ts) = t.weight + weigh ts :=
  rfl

@[simp] theorem weigh_append (ts us : List Token) : weigh (ts ++ us) = weigh ts + weigh us := by
  induction ts with
  | nil => exact (Nat.zero_add _).symm
  | cons t ts ih => rw [List.cons_append, weigh_cons, ih, weigh_cons, Nat.add_assoc]

@[simp] theorem UnaryOp.weight_token (op : UnaryOp) : op.token.weight = 1 := by cases op <;> rfl

@[simp] theorem BinaryOp.weight_token (op : BinaryOp) : op.token.weight = 1 := by cases op <;> rfl

@[simp] theorem Token.weight_keyword (k : Keyword) : (keyword k).weight = 1 := rfl

@[simp] theorem Token.weight_name (text : String) : (name text).weight = 1 := rfl

@[simp] theorem Token.weight_numeral (digits : String) : (numeral digits).weight = 1 := rfl

theorem Token.weight_ofWord (word : String) : (ofWord word).weight = 1 := by
  unfold ofWord
  split <;> rfl

/-- A mark weighs nothing. -/
@[simp] theorem Token.weight_mark {c : Char} (h : c ∉ ['+', '-', '*', '/', '<', '>', '!']) :
    (symbol c).weight = 0 :=
  if_neg h

@[simp] theorem weigh_parenthesized (ts : List Token) : weigh (parenthesized ts) = weigh ts := by
  simp [parenthesized]

@[simp] theorem weigh_braced (ts : List Token) : weigh (braced ts) = weigh ts := by
  simp [braced]

@[simp] theorem weigh_ending (ended : Bool) : weigh (ending ended) = 0 := by
  cases ended <;> simp [ending]

@[simp] theorem weigh_separated (items : List (List Token)) :
    weigh (separated items) = weigh items.flatten := by
  induction items with
  | nil => rfl
  | cons item items ih =>
      cases items with
      | nil => simp [separated]
      | cons next items => simp [separated, ih]

theorem weigh_names (names : List String) :
    weigh (separated (names.map ([.name ·]))) = names.length := by
  rw [weigh_separated]
  induction names with
  | nil => rfl
  | cons name names ih =>
      rw [List.map_cons, List.flatten_cons, weigh_append, ih, List.length_cons]
      exact Nat.add_comm 1 names.length

theorem Expression.weigh_wrap (e : Expression) (ts : List Token) : weigh (e.wrap ts) = weigh ts := by
  unfold wrap
  split
  · exact weigh_parenthesized ts
  · rfl

@[simp] theorem weightOf_cons (n : Node) (ns : List Node) :
    weightOf (n :: ns) = n.weight + weightOf ns :=
  rfl

@[simp] theorem weightOf_append (ns ms : List Node) :
    weightOf (ns ++ ms) = weightOf ns + weightOf ms := by
  induction ns with
  | nil => exact (Nat.zero_add _).symm
  | cons n ns ih => rw [List.cons_append, weightOf_cons, ih, weightOf_cons, Nat.add_assoc]

@[simp] theorem statementsOf_statement (s : Statement) (ns : List Node) :
    statementsOf (.statement s :: ns) = statementsOf ns + 1 :=
  List.countP_cons_of_pos rfl

@[simp] theorem statementsOf_expression (e : Expression) (ns : List Node) :
    statementsOf (.expression e :: ns) = statementsOf ns :=
  List.countP_cons_of_neg (by simp [Node.isStatement])

@[simp] theorem statementsOf_block (b : Block) (ns : List Node) :
    statementsOf (.block b :: ns) = statementsOf ns :=
  List.countP_cons_of_neg (by simp [Node.isStatement])

theorem statementsOf_program (p : Program) (ns : List Node) :
    statementsOf (.program p :: ns) = statementsOf ns :=
  List.countP_cons_of_neg (by simp [Node.isStatement])

@[simp] theorem statementsOf_append (ns ms : List Node) :
    statementsOf (ns ++ ms) = statementsOf ns + statementsOf ms :=
  List.countP_append

mutual

theorem Phrase.weigh_tokens : (p : Phrase) → weigh p.tokens = weightOf p.toExpression.nodes
  | .name _ | .numeral _ | .boolean _ => rfl
  | .grouped inner => by
      rw [Phrase.tokens, weigh_parenthesized, inner.weigh_tokens, Phrase.toExpression]
  | .unary op operand => by
      simp [Phrase.tokens, Phrase.toExpression, Expression.nodes, Node.weight,
        operand.weigh_tokens]
  | .binary left op right => by
      simp [Phrase.tokens, Phrase.toExpression, Expression.nodes, Node.weight,
        left.weigh_tokens, right.weigh_tokens, Nat.add_left_comm]
  | .conditional test yes none => by
      simp [Phrase.tokens, Phrase.toExpression, Expression.nodes, Node.weight,
        test.weigh_tokens, weigh_clauseTokens yes]
  | .conditional test yes (some no) => by
      simp [Phrase.tokens, Phrase.toExpression, Expression.nodes, Node.weight,
        test.weigh_tokens, weigh_clauseTokens yes, weigh_clauseTokens no]
      omega
  | .function params body => by
      simp only [Phrase.tokens, weigh_append, weigh_cons, weigh_parenthesized, weigh_names,
        weigh_braced, weigh_clauseTokens body, Phrase.toExpression, Expression.nodes,
        weightOf_cons, Node.weight, Token.weight_keyword, Nat.zero_add]
  | .call callee args => by
      simp [Phrase.tokens, Phrase.toExpression, Expression.nodes, Node.weight,
        callee.weigh_tokens, weigh_phraseTokens args]

theorem Clause.weigh_tokens : (c : Clause) → weigh c.tokens = weightOf c.toStatement.nodes
  | .binding _ value _ | .returning value _ | .expression value _ => by
      simp [Clause.tokens, Clause.toStatement, Statement.nodes, Node.weight, value.weigh_tokens,
        ← Nat.add_assoc]

theorem weigh_clauseTokens : (cs : List Clause) →
    weigh (clauseTokens cs) = weightOf (statementNodes (toStatements cs))
  | [] => rfl
  | c :: cs => by
      simp [clauseTokens, toStatements, statementNodes, c.weigh_tokens, weigh_clauseTokens cs]

theorem weigh_phraseTokens : (ps : List Phrase) →
    weigh (phraseTokens ps).flatten = weightOf (expressionNodes (toExpressions ps))
  | [] => rfl
  | p :: ps => by
      simp [phraseTokens, toExpressions, expressionNodes, p.weigh_tokens, weigh_phraseTokens ps]

end

theorem Program.weight_of_parse {text : String} {p : Program} (h : parse text = .ok p) :
    p.weight = weigh (tokensOf text.toList) := by
  obtain ⟨cs, -, ht, -, rfl⟩ := parse_eq_ok_iff.mp h
  rw [ht, weigh_clauseTokens, weight, nodes, weightOf_cons]
  exact Nat.zero_add _

mutual

theorem Expression.weigh_bareTokens : (e : Expression) → weigh e.bareTokens = weightOf e.nodes
  | .name _ | .integer _ | .boolean _ => rfl
  | .unary op operand => by
      simp [Expression.bareTokens, Expression.nodes, Node.weight, Expression.weigh_wrap,
        operand.weigh_bareTokens]
  | .binary left op right => by
      simp [Expression.bareTokens, Expression.nodes, Node.weight, Expression.weigh_wrap,
        left.weigh_bareTokens, right.weigh_bareTokens, Nat.add_left_comm]
  | .conditional test yes none => by
      simp [Expression.bareTokens, Expression.nodes, Node.weight, Expression.weigh_wrap,
        test.weigh_bareTokens, weigh_statementsTokens yes]
  | .conditional test yes (some no) => by
      simp [Expression.bareTokens, Expression.nodes, Node.weight, Expression.weigh_wrap,
        test.weigh_bareTokens, weigh_statementsTokens yes, weigh_statementsTokens no]
      omega
  | .function params body => by
      simp only [Expression.bareTokens, weigh_append, weigh_cons, weigh_parenthesized, weigh_names,
        weigh_braced, weigh_statementsTokens body, Expression.nodes, weightOf_cons, Node.weight,
        Token.weight_keyword, Nat.zero_add]
  | .call callee args => by
      simp [Expression.bareTokens, Expression.nodes, Node.weight, Expression.weigh_wrap,
        callee.weigh_bareTokens, weigh_argumentTokens args]

theorem Statement.weigh_tokens : (s : Statement) → weigh s.tokens = weightOf s.nodes
  | .binding _ value | .returning value | .expression value => by
      simp [Statement.tokens, Statement.nodes, Node.weight, Expression.weigh_wrap,
        value.weigh_bareTokens, ← Nat.add_assoc]

theorem weigh_statementsTokens : (ss : List Statement) →
    weigh (statementsTokens ss) = weightOf (statementNodes ss)
  | [] => rfl
  | s :: ss => by
      simp [statementsTokens, statementNodes, s.weigh_tokens, weigh_statementsTokens ss]

theorem weigh_argumentTokens : (es : List Expression) →
    weigh (argumentTokens es).flatten = weightOf (expressionNodes es)
  | [] => rfl
  | e :: es => by
      simp [argumentTokens, expressionNodes, Expression.weigh_wrap, e.weigh_bareTokens,
        weigh_argumentTokens es]

end

theorem Program.weight_eq_weigh (p : Program) : p.weight = weigh (statementsTokens p.statements) := by
  rw [weigh_statementsTokens, weight, nodes, weightOf_cons]
  exact Nat.zero_add _

end MonkeyLang
