import MonkeyLang.Proofs.Parse.Fusion
import MonkeyLang.Proofs.Parse.Regrouping
import MonkeyLang.Rounds

/-!
Rendering and reading a program again and again. A round that changes the program makes it lighter,
where tokens grow together, or leaves it as heavy with fewer statements, where statements become
calls. So the rounds come to an end: with an error, or with a program that is read back from its
rendering.
-/
namespace MonkeyLang
namespace Program

/-- The program is lighter than the other one, or just as heavy with fewer statements. -/
def Below (q p : Program) : Prop :=
  q.weight < p.weight ∨ q.weight = p.weight ∧ q.size < p.size

theorem size_eq (p : Program) : p.size = statementsOf (statementNodes p.statements) := by
  rw [size, nodes, statementsOf_program]

/-- Where the tokens of the rendering are not grown together, the statements are grouped anew. -/
theorem regroups_of_grammatical {p : Program} (hl : p.Legal)
    (ht : tokensOf p.render.toList = statementsTokens p.statements) (h : Grammatical p.render) :
    Regroups p.statements (statementsTokens p.statements) := by
  have hguarded := ifsGuarded_of_grammatical h
  rw [ht, ← List.append_nil (statementsTokens p.statements)] at hguarded
  have htests := testsOperation_statementNodes p.statements [] hguarded
  exact regroups (rereads_of_mem p.statements hl htests)

/-- What a program is read back as. -/
theorem eq_or_below_of_parse_render {p q : Program} (hl : p.Legal) (h : parse p.render = .ok q) :
    q = p ∨ q.Below p := by
  rcases tokensOf_render_or_lt hl with ht | hlt
  · obtain ⟨ss, hss, hfewer⟩ :=
      regroups_of_grammatical hl ht (grammatical_of_parse h nofun)
    cases h.symm.trans (parse_eq_ok (p := ⟨ss⟩) hss ht)
    refine hfewer.imp (congrArg Program.mk) fun hlt => .inr ⟨?_, ?_⟩
    · rw [weight_of_parse h, ht, weight_eq_weigh]
    · rwa [size_eq, size_eq]
  · exact .inr (.inl (by rwa [weight_of_parse h]))

end Program

theorem rounds_error {text : String} {e : ParseError} (h : Program.parse text = .error e)
    (before : Option Program) (n : Nat) : rounds before text (n + 1) = [.error e] := by
  rw [rounds, h]

theorem rounds_ok {text : String} {p : Program} (h : Program.parse text = .ok p)
    (before : Option Program) (n : Nat) :
    rounds before text (n + 1) =
      .ok ⟨p, before.map (p = ·)⟩ :: rounds (some p) p.render n := by
  rw [rounds, h]

/-- The first round reads the text of the beginning. -/
theorem parse_of_first_round {before : Option Program} {text : String} {n : Nat} {x : Round}
    (h : (rounds before text n)[0]? = some (.ok x)) : Program.parse text = .ok x.program := by
  cases n with
  | zero => cases h
  | succ n =>
      cases hparse : Program.parse text with
      | error e =>
          rw [rounds_error hparse] at h
          cases h
      | ok p =>
          rw [rounds_ok hparse] at h
          cases h
          rfl

/-- The later rounds are those of a rendering. -/
theorem exists_rounds_of_later {before : Option Program} {text : String} {n k : Nat}
    {r : Except ParseError Round} (h : (rounds before text n)[k + 1]? = some r) :
    ∃ p m, Program.parse text = .ok p ∧ n = m + 1 ∧ (rounds (some p) p.render m)[k]? = some r := by
  cases n with
  | zero => cases h
  | succ m =>
      cases hparse : Program.parse text with
      | error e =>
          rw [rounds_error hparse] at h
          cases h
      | ok p =>
          rw [rounds_ok hparse, List.getElem?_cons_succ] at h
          exact ⟨p, m, rfl, rfl, h⟩

/-- The program of a round was read, from the text of the beginning or from a rendering. -/
theorem exists_parse_of_rounds {before : Option Program} {text : String} {n k : Nat} {x : Round}
    (h : (rounds before text n)[k]? = some (.ok x)) :
    ∃ source, Program.parse source = .ok x.program := by
  induction k generalizing before text n with
  | zero => exact ⟨text, parse_of_first_round h⟩
  | succ k ih =>
      obtain ⟨p, m, -, -, hlater⟩ := exists_rounds_of_later h
      exact ih hlater

/-- Behind a round comes the one that reads the rendering of its program. -/
theorem parse_render_of_rounds {before : Option Program} {text : String} {n k : Nat} {x y : Round}
    (h : (rounds before text n)[k]? = some (.ok x))
    (hnext : (rounds before text n)[k + 1]? = some (.ok y)) :
    Program.parse x.program.render = .ok y.program := by
  induction k generalizing before text n with
  | zero =>
      obtain ⟨p, m, hparse, -, hlater⟩ := exists_rounds_of_later hnext
      cases hparse.symm.trans (parse_of_first_round h)
      exact parse_of_first_round hlater
  | succ k ih =>
      obtain ⟨p, m, hparse, rfl, hlater⟩ := exists_rounds_of_later hnext
      rw [rounds_ok hparse, List.getElem?_cons_succ] at h
      exact ih h hlater

/-- The round is an error, or its program is read back from its rendering. -/
def Settled (r : Except ParseError Round) : Prop :=
  (∃ e, r = .error e) ∨ ∃ x, r = .ok x ∧ Program.parse x.program.render = .ok x.program

theorem exists_settled_of_legal {p : Program} (hl : p.Legal) (before : Option Program) :
    ∃ k r, (rounds before p.render (k + 1))[k]? = some r ∧ Settled r := by
  cases hparse : Program.parse p.render with
  | error e =>
      refine ⟨0, .error e, ?_, .inl ⟨e, rfl⟩⟩
      rw [rounds_error hparse, List.getElem?_cons_zero]
  | ok q =>
      rcases Program.eq_or_below_of_parse_render hl hparse with rfl | hbelow
      · refine ⟨0, .ok ⟨q, before.map (q = ·)⟩, ?_, .inr ⟨_, rfl, hparse⟩⟩
        rw [rounds_ok hparse, List.getElem?_cons_zero]
      · obtain ⟨k, r, hr, hsettled⟩ :=
          exists_settled_of_legal (Program.legal_of_parse hparse) (some q)
        exact ⟨k + 1, r, by rwa [rounds_ok hparse, List.getElem?_cons_succ], hsettled⟩
termination_by (p.weight, p.size)
decreasing_by
  rcases hbelow with hlt | ⟨heq, hlt⟩
  · exact .left _ _ hlt
  · rw [heq]
    exact .right _ hlt

/-- Rounds of rendering and reading settle, whatever the text is. -/
theorem rounds_settle (text : String) :
    (∀ n k x y, (rounds none text n)[k]? = some (.ok x) →
      (rounds none text n)[k + 1]? = some (.ok y) →
        Program.parse x.program.render = .ok y.program ∧
          (y.program = x.program ∨ y.program.Below x.program)) ∧
    ∃ k r, (rounds none text (k + 1))[k]? = some r ∧ Settled r := by
  constructor
  · intro n k x y hx hy
    have hparse := parse_render_of_rounds hx hy
    obtain ⟨source, hsource⟩ := exists_parse_of_rounds hx
    exact ⟨hparse, Program.eq_or_below_of_parse_render (Program.legal_of_parse hsource) hparse⟩
  · cases hparse : Program.parse text with
    | error e =>
        refine ⟨0, .error e, ?_, .inl ⟨e, rfl⟩⟩
        rw [rounds_error hparse, List.getElem?_cons_zero]
    | ok p =>
        obtain ⟨k, r, hr, hsettled⟩ :=
          exists_settled_of_legal (Program.legal_of_parse hparse) (some p)
        exact ⟨k + 1, r, by rwa [rounds_ok hparse, List.getElem?_cons_succ], hsettled⟩

/-- The rendering of `a; (1 + 2)` is `a(1 + 2)`, a call. -/
theorem rounds_settle_call :
    (rounds none "a; (1 + 2)" 2)[0]? = some (.ok ⟨⟨[.expression (.name "a"),
        .expression (.binary (.integer 1) .add (.integer 2))]⟩, none⟩) ∧
      (rounds none "a; (1 + 2)" 2)[1]? = some (.ok ⟨⟨[.expression (.call (.name "a")
        [.binary (.integer 1) .add (.integer 2)])]⟩, some false⟩) ∧
      (Program.mk [.expression (.call (.name "a") [.binary (.integer 1) .add (.integer 2)])]).Below
        ⟨[.expression (.name "a"), .expression (.binary (.integer 1) .add (.integer 2))]⟩ := by
  have hx : (rounds none "a; (1 + 2)" 2)[0]? = some (.ok ⟨⟨[.expression (.name "a"),
      .expression (.binary (.integer 1) .add (.integer 2))]⟩, none⟩) := by decide +kernel
  have hy : (rounds none "a; (1 + 2)" 2)[1]? = some (.ok ⟨⟨[.expression (.call (.name "a")
      [.binary (.integer 1) .add (.integer 2)])]⟩, some false⟩) := by decide +kernel
  obtain ⟨-, heq | hbelow⟩ := (rounds_settle "a; (1 + 2)").1 2 0 _ _ hx hy
  · exact absurd heq (by simp)
  · exact ⟨hx, hy, hbelow⟩

end MonkeyLang
