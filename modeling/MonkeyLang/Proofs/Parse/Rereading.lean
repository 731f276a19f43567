import MonkeyLang.Proofs.Grammar.Nesting
import MonkeyLang.Proofs.Parse.Legality
import MonkeyLang.Proofs.Parse.Outcome
import MonkeyLang.Proofs.Parse.Rendering

/-!
Which renderings can be read. The grammar asks for parentheses behind an `if`, but the rendering
puts none there, so the condition has to bring its own, and only an operation does. A rendering
with any other condition, wherever it stands in the program, follows the grammar no longer.
-/
namespace MonkeyLang

/-- Behind every `if` stands something in parentheses and then a block. -/
def IfsGuarded : List Token → Prop
  | [] => True
  | t :: ts =>
      (t = .keyword .ifWord → ∃ inner rest, Balanced inner ∧
        ts = parenthesized inner ++ .symbol '\x7b' :: rest) ∧ IfsGuarded ts

theorem IfsGuarded.append {ts us : List Token} (h : IfsGuarded ts) (h' : IfsGuarded us) :
    IfsGuarded (ts ++ us) := by
  induction ts with
  | nil => exact h'
  | cons t ts ih =>
      refine ⟨fun ht => ?_, ih h.2⟩
      obtain ⟨inner, rest, hinner, rfl⟩ := h.1 ht
      exact ⟨inner, rest ++ us, hinner, by simp⟩

theorem IfsGuarded.of_append {ts us : List Token} (h : IfsGuarded (ts ++ us)) : IfsGuarded us := by
  induction ts with
  | nil => exact h
  | cons t ts ih => exact ih h.2

theorem ifsGuarded_token {t : Token} (ht : t ≠ .keyword .ifWord) : IfsGuarded [t] :=
  ⟨fun h => absurd h ht, trivial⟩

theorem IfsGuarded.parenthesized {ts : List Token} (h : IfsGuarded ts) :
    IfsGuarded (parenthesized ts) :=
  (ifsGuarded_token (by decide)).append (h.append (ifsGuarded_token (by decide)))

theorem IfsGuarded.braced {ts : List Token} (h : IfsGuarded ts) : IfsGuarded (braced ts) :=
  (ifsGuarded_token (by decide)).append (h.append (ifsGuarded_token (by decide)))

theorem compositional_ifsGuarded : Compositional fun ts => Balanced ts ∧ IfsGuarded ts where
  nil := ⟨balanced_nil, trivial⟩
  append h h' := ⟨h.1.append h'.1, h.2.append h'.2⟩
  token ht hif := ⟨balanced_token ht, ifsGuarded_token hif⟩
  parenthesized h := ⟨h.1.parenthesized, h.2.parenthesized⟩
  braced h := ⟨h.1.braced, h.2.braced⟩
  ifThen {ts us} h h' := by
    have hguard : parenthesized ts ++ braced us =
        parenthesized ts ++ .symbol '\x7b' :: (us ++ [.symbol '\x7d']) := by
      rw [MonkeyLang.braced, List.cons_append]
    exact ⟨compositional_balanced.ifThen h.1 h'.1, fun _ => ⟨ts, _, h.1, hguard⟩,
      h.2.parenthesized.append h'.2.braced⟩

/-- Behind every `if` of a text of the grammar stands a condition in parentheses. -/
theorem ifsGuarded_of_grammatical {text : String} (h : Grammatical text) :
    IfsGuarded (tokensOf text.toList) := by
  obtain ⟨cs, -, ht⟩ := (grammatical_iff text).mp h
  exact ht ▸ (compositional_ifsGuarded.clauses cs).2

theorem Balanced.not_balanced_closed {ts : List Token} (h : Balanced ts) (us : List Token) :
    ¬ Balanced (ts ++ .symbol ')' :: us) := by
  intro hclosed
  have hall := hclosed [] []
  rw [List.append_nil, h] at hall
  cases hall

theorem Balanced.eq_of_closed {ts us vs ws : List Token} (h : Balanced ts) (h' : Balanced us)
    (heq : ts ++ .symbol ')' :: vs = us ++ .symbol ')' :: ws) : vs = ws := by
  rcases List.append_eq_append_iff.mp heq with ⟨zs, rfl, hzs⟩ | ⟨zs, rfl, hzs⟩
  · cases zs with
    | nil => simpa using hzs
    | cons z zs =>
        obtain ⟨rfl, -⟩ := List.cons.inj hzs
        exact absurd h' (h.not_balanced_closed zs)
  · cases zs with
    | nil => simpa using hzs.symm
    | cons z zs =>
        obtain ⟨rfl, -⟩ := List.cons.inj hzs
        exact absurd h (h'.not_balanced_closed zs)

/-- A parenthesis is closed in one place only. -/
theorem eq_of_parenthesized {ts us vs ws : List Token} (h : Balanced ts)
    (h' : Balanced us) (heq : parenthesized ts ++ vs = parenthesized us ++ ws) : vs = ws :=
  h.eq_of_closed h' (by simpa [parenthesized] using heq)

theorem Balanced.wrap {e : Expression} {ts : List Token} (h : Balanced ts) :
    Balanced (e.wrap ts) := by
  unfold Expression.wrap
  split
  · exact h.parenthesized
  · exact h

theorem Balanced.keyword {ts : List Token} (k : Keyword) (h : Balanced ts) :
    Balanced (.keyword k :: ts) :=
  (balanced_token (t := .keyword k) rfl).append h

mutual

theorem Expression.balanced_bareTokens : (e : Expression) → Balanced e.bareTokens
  | .name _ | .integer _ | .boolean _ => balanced_token rfl
  | .unary op operand => compositional_balanced.unary op operand.balanced_bareTokens.wrap
  | .binary left op right =>
      left.balanced_bareTokens.wrap.append
        (compositional_balanced.binary op right.balanced_bareTokens.wrap)
  | .conditional test yes none =>
      .append (.keyword .ifWord test.balanced_bareTokens.wrap)
        (balanced_statementsTokens yes).braced
  | .conditional test yes (some no) =>
      .append (.append (.keyword .ifWord test.balanced_bareTokens.wrap)
        (balanced_statementsTokens yes).braced)
        (.keyword .elseWord (balanced_statementsTokens no).braced)
  | .function params body =>
      .append (.keyword .fnWord (compositional_balanced.names params).parenthesized)
        (balanced_statementsTokens body).braced
  | .call callee args =>
      callee.balanced_bareTokens.wrap.append
        (compositional_balanced.separated (balanced_argumentTokens args)).parenthesized

theorem Statement.balanced_tokens : (s : Statement) → Balanced s.tokens
  | .binding name value => by
      have hname : Balanced [.name name] := balanced_token rfl
      have hequals : Balanced [.symbol '='] := balanced_token (by decide)
      have hend : Balanced [.symbol ';'] := balanced_token (by decide)
      exact .keyword .letWord
        (hname.append (hequals.append (value.balanced_bareTokens.wrap.append hend)))
  | .returning value => by
      have hend : Balanced [.symbol ';'] := balanced_token (by decide)
      exact .keyword .returnWord (value.balanced_bareTokens.wrap.append hend)
  | .expression value => value.balanced_bareTokens.wrap

theorem balanced_statementsTokens : (ss : List Statement) → Balanced (statementsTokens ss)
  | [] => balanced_nil
  | s :: ss => s.balanced_tokens.append (balanced_statementsTokens ss)

theorem balanced_argumentTokens : (es : List Expression) →
    ∀ item ∈ argumentTokens es, Balanced item
  | [] => fun _ hitem => nomatch hitem
  | e :: es =>
      List.forall_mem_cons.mpr ⟨e.balanced_bareTokens.wrap, balanced_argumentTokens es⟩

end

theorem Expression.tokens_of_isOperation {e : Expression} (h : e.isOperation = true) :
    e.tokens = parenthesized e.bareTokens :=
  wrap_of_isOperation h e.bareTokens

/-- Where a rendering begins with a group in parentheses, that group is all of it, or it is called
and more parentheses stand behind. -/
theorem Expression.isOperation_or_called : (e : Expression) → (inner r rest : List Token) →
    Balanced inner → e.tokens ++ r = parenthesized inner ++ rest →
    (e.isOperation = true ∧ r = rest) ∨ rest.head? = some (.symbol '(')
  | .name _, _, _, _, _, h | .integer _, _, _, _, _, h | .boolean _, _, _, _, _, h
  | .conditional _ _ none, _, _, _, _, h | .conditional _ _ (some _), _, _, _, _, h
  | .function _ _, _, _, _, _, h => by cases h
  | .unary op operand, inner, r, rest, hinner, h => by
      rw [tokens_of_isOperation rfl] at h
      exact .inl ⟨rfl, eq_of_parenthesized (balanced_bareTokens _) hinner h⟩
  | .binary left op right, inner, r, rest, hinner, h => by
      rw [tokens_of_isOperation rfl] at h
      exact .inl ⟨rfl, eq_of_parenthesized (balanced_bareTokens _) hinner h⟩
  | .call callee args, inner, r, rest, hinner, h => by
      have hcallee : callee.tokens ++ (parenthesized (separated (argumentTokens args)) ++ r) =
          parenthesized inner ++ rest := by
        rw [← List.append_assoc]
        exact h
      rcases callee.isOperation_or_called inner _ rest hinner hcallee with ⟨-, rfl⟩ | hcalled
      · exact .inr rfl
      · exact .inr hcalled

theorem Expression.isOperation_of_guarded {test : Expression} {r : List Token}
    (h : ∃ inner rest, Balanced inner ∧
      test.tokens ++ .symbol '\x7b' :: r = parenthesized inner ++ .symbol '\x7b' :: rest) :
    test.isOperation = true := by
  obtain ⟨inner, rest, hinner, heq⟩ := h
  rcases test.isOperation_or_called inner _ _ hinner heq with ⟨hop, -⟩ | hcalled
  · exact hop
  · cases hcalled

mutual

/-- A rendering in which every `if` is followed as the grammar asks has only operations for
conditions. -/
theorem Expression.testsOperation_of_ifsGuarded : (e : Expression) → (r : List Token) →
    IfsGuarded (e.tokens ++ r) → ∀ n ∈ e.nodes, n.TestsOperation
  | .name _, _, _ | .integer _, _, _ | .boolean _, _, _ =>
      List.forall_mem_cons.mpr ⟨trivial, fun _ hn => nomatch hn⟩
  | .unary op operand, r, h => by
      have hop : (Expression.unary op operand).tokens ++ r =
          [.symbol '(', op.token] ++ (operand.tokens ++ .symbol ')' :: r) := by
        simp [Expression.tokens_unary, parenthesized]
      rw [hop] at h
      exact List.forall_mem_cons.mpr
        ⟨trivial, operand.testsOperation_of_ifsGuarded _ h.of_append⟩
  | .binary left op right, r, h => by
      have hop : (Expression.binary left op right).tokens ++ r =
          [.symbol '('] ++ (left.tokens ++ ([op.token] ++ (right.tokens ++ .symbol ')' :: r))) := by
        simp [Expression.tokens_binary, parenthesized]
      rw [hop] at h
      have hleft := left.testsOperation_of_ifsGuarded _ h.of_append
      have hright := right.testsOperation_of_ifsGuarded _ h.of_append.of_append.of_append
      exact List.forall_mem_cons.mpr ⟨trivial, List.forall_mem_append.mpr ⟨hleft, hright⟩⟩
  | .conditional test yes none, r, h => by
      have hif : (Expression.conditional test yes none).tokens ++ r = .keyword .ifWord ::
          (test.tokens ++ .symbol '\x7b' :: (statementsTokens yes ++ .symbol '\x7d' :: r)) := by
        simp [Expression.tokens_ifThen, braced]
      rw [hif] at h
      have htest := test.testsOperation_of_ifsGuarded _ h.2
      have hyes := testsOperation_statementNodes yes _ h.2.of_append.2
      exact List.forall_mem_cons.mpr ⟨Expression.isOperation_of_guarded (h.1 rfl),
        List.forall_mem_append.mpr ⟨htest, List.forall_mem_cons.mpr ⟨trivial, hyes⟩⟩⟩
  | .conditional test yes (some no), r, h => by
      have hif : (Expression.conditional test yes (some no)).tokens ++ r = .keyword .ifWord ::
          (test.tokens ++ .symbol '\x7b' :: (statementsTokens yes ++ .symbol '\x7d' ::
            .keyword .elseWord :: .symbol '\x7b' :: (statementsTokens no ++
              .symbol '\x7d' :: r))) := by
        simp [Expression.tokens_ifThenElse, braced]
      rw [hif] at h
      have htest := test.testsOperation_of_ifsGuarded _ h.2
      have hbranches := h.2.of_append.2
      have hyes := testsOperation_statementNodes yes _ hbranches
      have hno := testsOperation_statementNodes no _ hbranches.of_append.2.2.2
      refine List.forall_mem_append.mpr ⟨List.forall_mem_cons.mpr
        ⟨Expression.isOperation_of_guarded (h.1 rfl), ?_⟩, ?_⟩
      · exact List.forall_mem_append.mpr ⟨htest, List.forall_mem_cons.mpr ⟨trivial, hyes⟩⟩
      · exact List.forall_mem_cons.mpr ⟨trivial, hno⟩
  | .function params body, r, h => by
      have hfn : (Expression.function params body).tokens ++ r =
          .keyword .fnWord :: parenthesized (separated (params.map ([.name ·]))) ++
            ([.symbol '\x7b'] ++ (statementsTokens body ++ .symbol '\x7d' :: r)) := by
        simp [Expression.tokens_function, braced]
      rw [hfn] at h
      have hbody := testsOperation_statementNodes body _ h.of_append.of_append
      exact List.forall_mem_cons.mpr ⟨trivial, List.forall_mem_cons.mpr ⟨trivial, hbody⟩⟩
  | .call callee args, r, h => by
      have hcall : (Expression.call callee args).tokens ++ r = callee.tokens ++
          ([.symbol '('] ++ (separated (argumentTokens args) ++ .symbol ')' :: r)) := by
        simp [Expression.tokens_call, parenthesized]
      rw [hcall] at h
      have hcallee := callee.testsOperation_of_ifsGuarded _ h
      have hargs := testsOperation_expressionNodes args _ h.of_append.of_append
      exact List.forall_mem_cons.mpr ⟨trivial, List.forall_mem_append.mpr ⟨hcallee, hargs⟩⟩

theorem Statement.testsOperation_of_ifsGuarded : (s : Statement) → (r : List Token) →
    IfsGuarded (s.tokens ++ r) → ∀ n ∈ s.nodes, n.TestsOperation
  | .binding name value, r, h => by
      have hlet : (Statement.binding name value).tokens ++ r =
          [.keyword .letWord, .name name, .symbol '='] ++ (value.tokens ++ .symbol ';' :: r) := by
        simp [Statement.tokens_binding]
      rw [hlet] at h
      exact List.forall_mem_cons.mpr ⟨trivial, value.testsOperation_of_ifsGuarded _ h.of_append⟩
  | .returning value, r, h => by
      have hreturn : (Statement.returning value).tokens ++ r =
          [.keyword .returnWord] ++ (value.tokens ++ .symbol ';' :: r) := by
        simp [Statement.tokens_returning]
      rw [hreturn] at h
      exact List.forall_mem_cons.mpr ⟨trivial, value.testsOperation_of_ifsGuarded _ h.of_append⟩
  | .expression value, r, h =>
      List.forall_mem_cons.mpr ⟨trivial, value.testsOperation_of_ifsGuarded r h⟩

theorem testsOperation_statementNodes : (ss : List Statement) → (r : List Token) →
    IfsGuarded (statementsTokens ss ++ r) → ∀ n ∈ statementNodes ss, n.TestsOperation
  | [], _, _ => fun _ hn => nomatch hn
  | s :: ss, r, h => by
      rw [statementsTokens, List.append_assoc] at h
      have hs := s.testsOperation_of_ifsGuarded _ h
      have hss := testsOperation_statementNodes ss r h.of_append
      exact List.forall_mem_append.mpr ⟨hs, hss⟩

theorem testsOperation_expressionNodes : (es : List Expression) → (r : List Token) →
    IfsGuarded (separated (argumentTokens es) ++ r) → ∀ n ∈ expressionNodes es, n.TestsOperation
  | [], _, _ => fun _ hn => nomatch hn
  | [e], r, h =>
      List.forall_mem_append.mpr ⟨e.testsOperation_of_ifsGuarded r h, fun _ hn => nomatch hn⟩
  | e :: next :: es, r, h => by
      have hitems : separated (argumentTokens (e :: next :: es)) ++ r = e.tokens ++
          ([.symbol ','] ++ (separated (argumentTokens (next :: es)) ++ r)) := by
        simp [argumentTokens, separated, Expression.tokens]
      rw [hitems] at h
      have he := e.testsOperation_of_ifsGuarded _ h
      have hmore := testsOperation_expressionNodes (next :: es) r h.of_append.of_append
      exact List.forall_mem_append.mpr ⟨he, hmore⟩

end

theorem standApart_of_length_le_one {ss : List Statement} (h : ss.length ≤ 1) : StandApart ss := by
  cases ss with
  | nil => trivial
  | cons s ss =>
      have hnil : ss = [] := List.eq_nil_of_length_eq_zero (by simpa using h)
      subst hnil
      exact ⟨nofun, trivial⟩

namespace Program

/-- The program and every block in it hold at most one statement. -/
def SingleStatement (p : Program) : Prop := ∀ n ∈ p.nodes, n.statements.length ≤ 1

theorem apart_of_singleStatement {p : Program} (h : p.SingleStatement) :
    ∀ n ∈ p.nodes, n.Apart :=
  fun n hn => standApart_of_length_le_one (h n hn)

section

variable {p : Program} (hl : p.Legal) (ha : ∀ n ∈ p.nodes, n.Apart)
include hl ha

theorem tokensOf_render : tokensOf p.render.toList = statementsTokens p.statements := by
  obtain ⟨hapart, hnodes⟩ := List.forall_mem_cons.mp ha
  have hblock : ∀ n ∈ Node.block p.statements :: statementNodes p.statements, n.Apart :=
    List.forall_mem_cons.mpr ⟨hapart, hnodes⟩
  have hwrites := writes_renderStatements_of_apart p.statements hl hblock [] rfl
  rwa [List.append_nil, tokensOf_nil, List.append_nil] at hwrites

theorem testsOperation_of_grammatical (h : Grammatical p.render) :
    ∀ n ∈ p.nodes, n.TestsOperation := by
  have hguarded := ifsGuarded_of_grammatical h
  rw [tokensOf_render hl ha, ← List.append_nil (statementsTokens p.statements)] at hguarded
  exact List.forall_mem_cons.mpr ⟨trivial, testsOperation_statementNodes _ [] hguarded⟩

theorem parse_render_of_testsOperation (h : ∀ n ∈ p.nodes, n.TestsOperation) :
    parse p.render = .ok p := by
  have hp : p.Printable := (printable_iff p).mpr fun n hn => ⟨ha n hn, h n hn⟩
  exact parse_eq_ok (spells_statements p.statements hl hp) (tokensOf_render hl ha)

end

/-- A program of single statements is read back from its rendering if every condition in it is an
operation. If one is not, its rendering does not follow the grammar. -/
theorem parse_render_of_singleStatement (text : String) (p : Program) (h : parse text = .ok p)
    (hp : p.SingleStatement) :
    (parse p.render = .ok p ↔ ∀ n ∈ p.nodes, n.TestsOperation) ∧
    ((∃ report, parse p.render = .error (.malformed report)) ↔
      ¬ ∀ n ∈ p.nodes, n.TestsOperation) := by
  have hl := legal_of_parse h
  have ha := apart_of_singleStatement hp
  have hok (ht : ∀ n ∈ p.nodes, n.TestsOperation) := parse_render_of_testsOperation hl ha ht
  have hgrammatical : Grammatical p.render ↔ ∀ n ∈ p.nodes, n.TestsOperation :=
    ⟨testsOperation_of_grammatical hl ha, fun ht => grammatical_of_parse (hok ht) nofun⟩
  refine ⟨⟨fun hread => hgrammatical.mp (grammatical_of_parse hread nofun), hok⟩, ?_⟩
  rw [malformed_iff, hgrammatical]

theorem parse_render_of_singleStatement_negation :
    parse "if (!a) \x7b f(a); \x7d" = .ok ⟨[.expression (.conditional (.unary .not (.name "a"))
        [.expression (.call (.name "f") [.name "a"])] none)]⟩ ∧
      SingleStatement ⟨[.expression (.conditional (.unary .not (.name "a"))
        [.expression (.call (.name "f") [.name "a"])] none)]⟩ ∧
      parse (render ⟨[.expression (.conditional (.unary .not (.name "a"))
          [.expression (.call (.name "f") [.name "a"])] none)]⟩) =
        .ok ⟨[.expression (.conditional (.unary .not (.name "a"))
          [.expression (.call (.name "f") [.name "a"])] none)]⟩ := by
  have h : parse "if (!a) \x7b f(a); \x7d" =
      .ok ⟨[.expression (.conditional (.unary .not (.name "a"))
        [.expression (.call (.name "f") [.name "a"])] none)]⟩ := by
    have hcs : ClausesWellFormed [.expression (.conditional (.unary .not (.name "a"))
        [.expression (.call (.name "f") [.name "a"]) true] none) false] := by
      simp [ClausesWellFormed, Clause.WellFormed, Phrase.WellFormed, PhrasesWellFormed,
        Phrase.precedence, Clause.ended, clauseTokens]
    exact parse_eq_ok_iff.mpr ⟨_, hcs, by decide +kernel, by decide +kernel, rfl⟩
  have hsingle : SingleStatement ⟨[.expression (.conditional (.unary .not (.name "a"))
      [.expression (.call (.name "f") [.name "a"])] none)]⟩ := by
    simp [SingleStatement, nodes, statementNodes, Statement.nodes, Expression.nodes,
      expressionNodes, Node.statements]
  refine ⟨h, hsingle, (parse_render_of_singleStatement _ _ h hsingle).1.mpr ?_⟩
  simp [nodes, statementNodes, Statement.nodes, Expression.nodes, expressionNodes,
    Node.TestsOperation, Expression.TestsOperation, Expression.isOperation]

/-- A condition that is a name is rendered without parentheses, and the text cannot be read. -/
theorem malformed_render_name :
    parse "if (a) \x7b\x7d" = .ok ⟨[.expression (.conditional (.name "a") [] none)]⟩ ∧
      SingleStatement ⟨[.expression (.conditional (.name "a") [] none)]⟩ ∧
      render ⟨[.expression (.conditional (.name "a") [] none)]⟩ = "if a \x7b\x7d" ∧
      ∃ report, parse "if a \x7b\x7d" = .error (.malformed report) := by
  have hcs : ClausesWellFormed [.expression (.conditional (.name "a") [] none) false] := by
    simp [ClausesWellFormed, Clause.WellFormed, Phrase.WellFormed, Clause.ended, clauseTokens]
  have h : parse "if (a) \x7b\x7d" = .ok ⟨[.expression (.conditional (.name "a") [] none)]⟩ :=
    parse_eq_ok_iff.mpr ⟨_, hcs, by decide +kernel, by decide +kernel, rfl⟩
  have hsingle : SingleStatement ⟨[.expression (.conditional (.name "a") [] none)]⟩ := by
    simp [SingleStatement, nodes, statementNodes, Statement.nodes, Expression.nodes,
      Node.statements]
  have hrender : render ⟨[.expression (.conditional (.name "a") [] none)]⟩ = "if a \x7b\x7d" := by
    simp [render, renderStatements, Statement.render, Expression.render, renderBlock]
  refine ⟨h, hsingle, hrender, ?_⟩
  rw [← hrender, malformed_iff]
  intro hgrammatical
  have htests := testsOperation_of_grammatical (legal_of_parse h)
    (apart_of_singleStatement hsingle) hgrammatical
  simp [nodes, statementNodes, Statement.nodes, Expression.nodes, Node.TestsOperation,
    Expression.TestsOperation, Expression.isOperation] at htests

end Program
end MonkeyLang
