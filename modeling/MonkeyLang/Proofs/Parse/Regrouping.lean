import MonkeyLang.Proofs.Parse.Rereading
import MonkeyLang.Proofs.Parse.Weight

/-!
What the tokens of a rendering are read as. Where every condition is an operation, the only thing
that can happen is that a statement without a semicolon is called by the parenthesis that begins
the statement behind it. The two become one statement, and everything else stays as it was.
-/
namespace MonkeyLang

theorem Spells.operand_zero {level : Nat} {e : Expression} {ts : List Token}
    (h : Spells (.operand level e) ts) : Spells (.operand 0 e) ts := by
  cases h with
  | unwrapped _ bare => exact .unwrapped (Nat.zero_le _) bare
  | wrapped inner => exact .wrapped inner

theorem Spells.operand_ne_nil {e : Expression} {ts : List Token}
    (h : Spells (.operand 0 e) ts) : ts ≠ [] := by
  obtain ⟨p, -, -, rfl, -⟩ := h.denotes (by decide)
  obtain ⟨t, us, htokens, -⟩ := p.exists_tokens_eq
  rw [htokens]
  exact List.cons_ne_nil _ _

/-- Of what can be called, only calls may begin with a parenthesis that is not all around them. -/
theorem Spells.head?_bare {e : Expression} {us : List Token} (h : Spells (.bare e) us)
    (hlevel : 6 ≤ e.level) (hcall : ∀ callee args, e ≠ .call callee args) :
    us.head? ≠ some (.symbol '(') := by
  cases h with
  | name _ | integer _ _ | boolean _ | ifThen _ _ | ifThenElse _ _ _ | function _ _ => nofun
  | unary _ _ => exact absurd hlevel (by simp [Expression.level])
  | binary op _ _ => exact absurd hlevel (Nat.not_le.mpr (Expression.level_binary_lt _ _ op))
  | call _ _ => exact absurd rfl (hcall _ _)

/-- An expression that begins with a parenthesis calls whatever can be called in front of it. -/
theorem Spells.exists_call {f : Expression} {ts : List Token} (hf : Spells (.operand 6 f) ts)
    (e : Expression) {us : List Token} (h : Spells (.operand 6 e) us)
    (hhead : us.head? = some (.symbol '(')) : ∃ g, Spells (.operand 6 g) (ts ++ us) ∧
      statementsOf g.nodes = statementsOf f.nodes + statementsOf e.nodes := by
  cases h with
  | wrapped inner =>
      refine ⟨.call f [e], .unwrapped (Nat.le_refl 6) (.call hf (.item inner)), ?_⟩
      simp [Expression.nodes, expressionNodes]
  | unwrapped hlevel bare =>
      cases e with
      | call callee args =>
          cases bare with
          | @call _ _ vs ws hcallee hargs =>
              have hfirst : vs.head? = some (.symbol '(') := by
                obtain ⟨v, vs, rfl⟩ := List.exists_cons_of_ne_nil hcallee.operand_zero.operand_ne_nil
                exact hhead
              obtain ⟨g, hg, hcount⟩ := exists_call hf callee hcallee hfirst
              refine ⟨.call g args, .unwrapped (Nat.le_refl 6) ?_, ?_⟩
              · rw [← List.append_assoc]
                exact .call hg hargs
              · simp [Expression.nodes, hcount, Nat.add_assoc]
      | name _ | integer _ | boolean _ | unary _ _ | binary _ _ _ | conditional _ _ _
      | function _ _ => exact absurd hhead (bare.head?_bare hlevel nofun)

/-- From the tokens of the one expression the other one is read. It is the same, or it holds fewer
statements. -/
structure Rereading (e d : Expression) : Prop where
  operation : d.isOperation = e.isOperation
  spells : Spells (.bare d) e.bareTokens
  fewer : d = e ∨ statementsOf d.nodes < statementsOf e.nodes

theorem Rereading.operand {e d : Expression} (h : Rereading e d) {level : Nat}
    (hlevel : level ≤ 6) : Spells (.operand level d) e.tokens := by
  have hwrap := h.spells.wrap hlevel
  rwa [Expression.wrap, h.operation] at hwrap

theorem Rereading.refl {e : Expression} (h : Spells (.bare e) e.bareTokens) : Rereading e e :=
  ⟨rfl, h, .inl rfl⟩

/-- The value of the statement is read back as some expression. -/
def Statement.Rereads : Statement → Prop
  | .binding _ value | .returning value | .expression value => ∃ d, Rereading value d

/-- From the tokens statements are read: these, or fewer. -/
def Regroups (ss : List Statement) (ts : List Token) : Prop :=
  ∃ ds, Spells (.statements ds) ts ∧
    (ds = ss ∨ statementsOf (statementNodes ds) < statementsOf (statementNodes ss))

theorem Regroups.mono {rs ss : List Statement} {ts : List Token} (h : Regroups rs ts)
    (hle : rs = ss ∨ statementsOf (statementNodes rs) < statementsOf (statementNodes ss)) :
    Regroups ss ts := by
  obtain ⟨ds, hds, hfewer⟩ := h
  refine ⟨ds, hds, ?_⟩
  rcases hle with rfl | hlt
  · exact hfewer
  · rcases hfewer with rfl | hfewer
    · exact .inr hlt
    · exact .inr (Nat.lt_trans hfewer hlt)

/-- Another value in a statement, with fewer statements in it. -/
theorem Rereading.fewer_cons {e d : Expression} (h : Rereading e d) (f : Expression → Statement)
    (hf : ∀ e, (f e).nodes = .statement (f e) :: e.nodes) (ss : List Statement) :
    f d :: ss = f e :: ss ∨
      statementsOf (statementNodes (f d :: ss)) < statementsOf (statementNodes (f e :: ss)) := by
  refine h.fewer.imp (congrArg (f · :: ss)) fun hlt => ?_
  simpa [statementNodes, hf] using hlt

theorem Regroups.cons {s : Statement} {ss : List Statement} {ts us : List Token}
    (h : Regroups ss us)
    (hspells : ∀ ds, Spells (.statements ds) us → Spells (.statements (s :: ds)) ts) :
    Regroups (s :: ss) ts := by
  obtain ⟨ds, hds, hfewer⟩ := h
  refine ⟨s :: ds, hspells ds hds, hfewer.imp (congrArg _) fun hlt => ?_⟩
  simpa [statementNodes] using hlt

/-- From the tokens statements are read: these, or fewer, also behind an expression that they may
call. -/
structure RegroupsBehind (ss : List Statement) (ts : List Token) : Prop where
  alone : Regroups ss ts
  behind {f : Expression} {us : List Token} (hf : Spells (.operand 6 f) us) :
    Regroups (.expression f :: ss) (us ++ ts)

theorem regroupsBehind_nil : RegroupsBehind [] [] where
  alone := ⟨[], .noStatement, .inl rfl⟩
  behind {f} _ hf :=
    ⟨[.expression f], .unended (.expression hf.operand_zero) .noStatement (.inl rfl), .inl rfl⟩

theorem RegroupsBehind.regroups_cons {s : Statement} {ss : List Statement} (hs : s.Rereads)
    (h : RegroupsBehind ss (statementsTokens ss)) :
    Regroups (s :: ss) (statementsTokens (s :: ss)) := by
  cases s with
  | binding name value =>
      obtain ⟨d, hd⟩ := hs
      refine .mono ?_ (hd.fewer_cons (.binding name) (fun _ => rfl) ss)
      refine h.alone.cons fun ds hds => ?_
      simpa [statementsTokens, Statement.tokens_binding] using
        (Spells.binding name (hd.operand (Nat.zero_le 6))).ended hds
  | returning value =>
      obtain ⟨d, hd⟩ := hs
      refine .mono ?_ (hd.fewer_cons .returning (fun _ => rfl) ss)
      refine h.alone.cons fun ds hds => ?_
      simpa [statementsTokens, Statement.tokens_returning] using
        (Spells.returning (hd.operand (Nat.zero_le 6))).ended hds
  | expression value =>
      obtain ⟨d, hd⟩ := hs
      exact (h.behind (hd.operand (Nat.le_refl 6))).mono
        (hd.fewer_cons .expression (fun _ => rfl) ss)

/-- A statement that begins with a parenthesis is the argument of the expression before it. The two
become one, so one statement is gone. -/
theorem RegroupsBehind.called {f : Expression} {s : Statement} {ss : List Statement}
    {us : List Token} (hs : s.Rereads) (h : RegroupsBehind ss (statementsTokens ss))
    (hf : Spells (.operand 6 f) us) (hparen : s.tokens.head? = some (.symbol '(')) :
    Regroups (.expression f :: s :: ss) (us ++ statementsTokens (s :: ss)) := by
  cases s with
  | binding _ _ => cases hparen
  | returning _ => cases hparen
  | expression value =>
      obtain ⟨d, hd⟩ := hs
      obtain ⟨g, hg, hcount⟩ := hf.exists_call d (hd.operand (Nat.le_refl 6)) hparen
      have hall := h.behind hg
      rw [List.append_assoc] at hall
      refine hall.mono (.inr ?_)
      have hle : statementsOf d.nodes ≤ statementsOf value.nodes := by
        rcases hd.fewer with rfl | hlt
        · exact Nat.le_refl _
        · exact Nat.le_of_lt hlt
      simp only [statementNodes, Statement.nodes, statementsOf_append, statementsOf_statement,
        hcount]
      omega

theorem regroupsBehind {ss : List Statement} (h : ∀ s ∈ ss, s.Rereads) :
    RegroupsBehind ss (statementsTokens ss) := by
  induction ss with
  | nil => exact regroupsBehind_nil
  | cons s ss ih =>
      obtain ⟨hs, hss⟩ := List.forall_mem_cons.mp h
      have hself := (ih hss).regroups_cons hs
      refine ⟨hself, fun {f ts} hf => ?_⟩
      by_cases hparen : s.tokens.head? = some (.symbol '(')
      · exact (ih hss).called hs hf hparen
      · refine hself.cons fun ds hds => .unended (.expression hf.operand_zero) hds (.inr ?_)
        intro t ht
        obtain ⟨u, us, htokens, hminus, -⟩ := s.exists_tokens_eq
        rw [htokens] at hparen
        rw [statementsTokens, htokens] at ht
        cases ht
        exact ⟨fun hu => hparen (congrArg some hu), hminus⟩

theorem regroups {ss : List Statement} (h : ∀ s ∈ ss, s.Rereads) :
    Regroups ss (statementsTokens ss) :=
  (regroupsBehind h).alone

theorem Rereading.items {es ds : List Expression} (h : List.Forall₂ Rereading es ds) :
    Spells (.items ds) (separated (argumentTokens es)) := by
  induction h with
  | nil => exact .noItem
  | @cons e d es ds he hes ih =>
      cases hes with
      | nil => exact .item (he.operand (Nat.zero_le 6))
      | cons hnext hmore => exact .moreItems (he.operand (Nat.zero_le 6)) ih

theorem Rereading.fewer_items {es ds : List Expression} (h : List.Forall₂ Rereading es ds) :
    ds = es ∨ statementsOf (expressionNodes ds) < statementsOf (expressionNodes es) := by
  induction h with
  | nil => exact .inl rfl
  | @cons e d es ds he _ ih =>
      simp only [expressionNodes, statementsOf_append]
      grind [he.fewer]

mutual

theorem Expression.exists_rereading : (e : Expression) → e.Legal →
    (∀ n ∈ e.nodes, n.TestsOperation) → ∃ d, Rereading e d
  | .name text, _, _ => ⟨_, .refl (.name text)⟩
  | .integer value, hl, _ => ⟨_, .refl ((Expression.integer value).spells hl trivial)⟩
  | .boolean value, _, _ => ⟨_, .refl (.boolean value)⟩
  | .unary op operand, hl, ht => by
      obtain ⟨d, hd⟩ := operand.exists_rereading hl (List.forall_mem_cons.mp ht).2
      refine ⟨.unary op d, rfl, .unary op (hd.operand (by decide)), ?_⟩
      simpa [Expression.nodes] using hd.fewer
  | .binary left op right, hl, ht => by
      obtain ⟨hleft, hright⟩ := List.forall_mem_append.mp (List.forall_mem_cons.mp ht).2
      obtain ⟨d, hd⟩ := left.exists_rereading hl.1 hleft
      obtain ⟨f, hf⟩ := right.exists_rereading hl.2 hright
      have hlt := Expression.level_binary_lt d f op
      refine ⟨.binary d op f, rfl, .binary op (hd.operand (Nat.le_of_lt hlt)) (hf.operand hlt), ?_⟩
      have hfirst := hd.fewer
      have hsecond := hf.fewer
      simp only [Expression.nodes, List.cons_append, statementsOf_expression, statementsOf_append]
      grind
  | .conditional test yes none, hl, ht => by
      obtain ⟨hop, ht⟩ := List.forall_mem_cons.mp ht
      obtain ⟨htest, hyes⟩ := List.forall_mem_append.mp ht
      obtain ⟨d, hd⟩ := test.exists_rereading hl.1 htest
      obtain ⟨ss, hss, hbody⟩ :=
        regroups (rereads_of_mem yes hl.2 (List.forall_mem_cons.mp hyes).2)
      refine ⟨.conditional d ss none, rfl, ?_, ?_⟩
      · -- The parentheses of the condition are those of the `if`.
        rw [Expression.bareTokens, Expression.wrap_of_isOperation hop]
        exact .ifThen (.unwrapped (Nat.zero_le _) hd.spells) hss
      · have hfirst := hd.fewer
        simp only [Expression.nodes, List.cons_append, statementsOf_expression,
          statementsOf_append, statementsOf_block]
        grind
  | .conditional test yes (some no), hl, ht => by
      obtain ⟨hthen, hno⟩ := List.forall_mem_append.mp ht
      obtain ⟨hop, ht⟩ := List.forall_mem_cons.mp hthen
      obtain ⟨htest, hyes⟩ := List.forall_mem_append.mp ht
      obtain ⟨d, hd⟩ := test.exists_rereading hl.1 htest
      obtain ⟨ss, hss, hbody⟩ :=
        regroups (rereads_of_mem yes hl.2.1 (List.forall_mem_cons.mp hyes).2)
      obtain ⟨rs, hrs, hother⟩ :=
        regroups (rereads_of_mem no hl.2.2 (List.forall_mem_cons.mp hno).2)
      refine ⟨.conditional d ss (some rs), rfl, ?_, ?_⟩
      · rw [Expression.bareTokens, Expression.wrap_of_isOperation hop]
        exact .ifThenElse (.unwrapped (Nat.zero_le _) hd.spells) hss hrs
      · have hfirst := hd.fewer
        simp only [Expression.nodes, List.cons_append, statementsOf_expression,
          statementsOf_append, statementsOf_block]
        grind
  | .function params body, hl, ht => by
      have hbody := (List.forall_mem_cons.mp (List.forall_mem_cons.mp ht).2).2
      obtain ⟨ss, hss, hfewer⟩ := regroups (rereads_of_mem body hl.2 hbody)
      refine ⟨.function params ss, rfl, .function params hss, ?_⟩
      simpa [Expression.nodes] using hfewer
  | .call callee args, hl, ht => by
      obtain ⟨hcallee, hargs⟩ := List.forall_mem_append.mp (List.forall_mem_cons.mp ht).2
      obtain ⟨d, hd⟩ := callee.exists_rereading hl.1 hcallee
      obtain ⟨ds, hds⟩ := exists_rereadings args hl.2 hargs
      refine ⟨.call d ds, rfl, .call (hd.operand (Nat.le_refl 6)) (Rereading.items hds), ?_⟩
      have hfirst := hd.fewer
      have hsecond := Rereading.fewer_items hds
      simp only [Expression.nodes, List.cons_append, statementsOf_expression, statementsOf_append]
      grind

theorem Statement.rereads : (s : Statement) → s.Legal → (∀ n ∈ s.nodes, n.TestsOperation) →
    s.Rereads
  | .binding _ value, hl, ht => value.exists_rereading hl.2 (List.forall_mem_cons.mp ht).2
  | .returning value, hl, ht => value.exists_rereading hl (List.forall_mem_cons.mp ht).2
  | .expression value, hl, ht => value.exists_rereading hl (List.forall_mem_cons.mp ht).2

theorem rereads_of_mem : (ss : List Statement) → StatementsLegal ss →
    (∀ n ∈ statementNodes ss, n.TestsOperation) → ∀ s ∈ ss, s.Rereads
  | [], _, _ => nofun
  | s :: ss, hl, ht =>
      List.forall_mem_cons.mpr ⟨s.rereads hl.1 (List.forall_mem_append.mp ht).1,
        rereads_of_mem ss hl.2 (List.forall_mem_append.mp ht).2⟩

theorem exists_rereadings : (es : List Expression) → ExpressionsLegal es →
    (∀ n ∈ expressionNodes es, n.TestsOperation) → ∃ ds, List.Forall₂ Rereading es ds
  | [], _, _ => ⟨[], .nil⟩
  | e :: es, hl, ht => by
      obtain ⟨he, hes⟩ := List.forall_mem_append.mp ht
      obtain ⟨d, hd⟩ := e.exists_rereading hl.1 he
      obtain ⟨ds, hds⟩ := exists_rereadings es hl.2 hes
      exact ⟨d :: ds, .cons hd hds⟩

end

end MonkeyLang
