import MonkeyLang.Proofs.Lexing.Joining
import MonkeyLang.Proofs.Parse.Outcome

/-!
Parsing a text in two parts. Where the first part follows the grammar and ends with a semicolon,
nothing behind the semicolon changes how it is read: the statements of the whole are those of the
two parts, and the first error of the whole is the first one of the parts.
-/
namespace MonkeyLang

theorem getLast?_parenthesized (ts : List Token) :
    (parenthesized ts).getLast? = some (.symbol ')') :=
  List.getLast?_concat

theorem getLast?_braced (ts : List Token) : (braced ts).getLast? = some (.symbol '\x7d') :=
  List.getLast?_concat

theorem Phrase.exists_getLast?_eq : (p : Phrase) →
    ∃ t, p.tokens.getLast? = some t ∧ t ≠ .symbol ';'
  | .name _ | .numeral _ | .boolean _ => ⟨_, rfl, nofun⟩
  | .grouped _ => ⟨_, getLast?_parenthesized _, by decide⟩
  | .unary op operand => by
      obtain ⟨t, h, ht⟩ := operand.exists_getLast?_eq
      exact ⟨t, by rw [tokens, List.getLast?_cons, h]; rfl, ht⟩
  | .binary left op right => by
      obtain ⟨t, h, ht⟩ := right.exists_getLast?_eq
      exact ⟨t, by rw [tokens, List.getLast?_append, List.getLast?_cons, h]; rfl, ht⟩
  | .conditional _ _ none | .function _ _ =>
      ⟨_, by rw [tokens, List.getLast?_append, getLast?_braced]; rfl, by decide⟩
  | .conditional _ _ (some _) =>
      ⟨_, by rw [tokens, List.getLast?_append, List.getLast?_cons, getLast?_braced]; rfl, by decide⟩
  | .call _ _ => ⟨_, by rw [tokens, List.getLast?_append, getLast?_parenthesized]; rfl, by decide⟩

theorem Clause.ended_of_getLast? {c : Clause} (h : c.tokens.getLast? = some (.symbol ';')) :
    c.ended = true := by
  rw [← Bool.not_eq_false]
  intro hended
  have hvalue (value : Phrase) (ts : List Token) :
      (ts ++ value.tokens ++ ending false).getLast? ≠ some (.symbol ';') := by
    obtain ⟨t, hlast, ht⟩ := value.exists_getLast?_eq
    rw [ending, if_neg Bool.false_ne_true, List.append_nil, List.getLast?_append, hlast]
    exact fun heq => ht (Option.some.inj heq)
  cases c with
  | binding name value ended =>
      cases hended
      exact hvalue value [.keyword .letWord, .name name, .symbol '='] h
  | returning value ended =>
      cases hended
      exact hvalue value [.keyword .returnWord] h
  | expression value ended =>
      cases hended
      exact hvalue value [] h

/-- The last statement, if there is one, has its semicolon. -/
def Finished (cs : List Clause) : Prop := ∀ c ∈ cs.getLast?, c.ended = true

theorem Finished.tail {c d : Clause} {cs : List Clause} (h : Finished (c :: d :: cs)) :
    Finished (d :: cs) := by
  rwa [Finished, List.getLast?_cons_cons] at h

theorem finished_of_getLast? {cs : List Clause}
    (h : (clauseTokens cs).getLast? = some (.symbol ';')) : Finished cs := by
  induction cs with
  | nil => exact nofun
  | cons c cs ih =>
      cases cs with
      | nil =>
          rintro _ ⟨⟩
          refine Clause.ended_of_getLast? ?_
          rwa [clauseTokens, clauseTokens, List.append_nil] at h
      | cons d cs =>
          obtain ⟨t, ts, htokens, -⟩ := d.exists_tokens_eq
          have hlast : (clauseTokens (d :: cs)).getLast? = some (.symbol ';') := by
            rw [clauseTokens, List.getLast?_append] at h
            cases hrest : (clauseTokens (d :: cs)).getLast? with
            | none =>
                rw [List.getLast?_eq_none_iff, clauseTokens, htokens] at hrest
                cases hrest
            | some u => rwa [hrest] at h
          intro e he
          rw [List.getLast?_cons_cons] at he
          exact ih hlast e he

theorem clauseTokens_append (cs ds : List Clause) :
    clauseTokens (cs ++ ds) = clauseTokens cs ++ clauseTokens ds := by
  induction cs with
  | nil => rfl
  | cons c cs ih => simp [clauseTokens, ih]

theorem toStatements_append (cs ds : List Clause) :
    toStatements (cs ++ ds) = toStatements cs ++ toStatements ds := by
  induction cs with
  | nil => rfl
  | cons c cs ih => simp [toStatements, ih]

theorem head?_clauseTokens_append (c : Clause) (cs : List Clause) (ts : List Token) :
    (clauseTokens (c :: cs) ++ ts).head? = (clauseTokens (c :: cs)).head? := by
  obtain ⟨t, us, htokens, -⟩ := c.exists_tokens_eq
  rw [clauseTokens, htokens]
  rfl

theorem clausesWellFormed_append {cs ds : List Clause} (hcs : ClausesWellFormed cs)
    (hfinished : Finished cs) (hds : ClausesWellFormed ds) : ClausesWellFormed (cs ++ ds) := by
  induction cs with
  | nil => exact hds
  | cons c cs ih =>
      obtain ⟨hc, hnext, hcs⟩ := hcs
      cases cs with
      | nil => exact ⟨hc, .inl (hfinished c rfl), hds⟩
      | cons d cs =>
          refine ⟨hc, hnext.imp_right fun hjoins => ?_, ih hcs hfinished.tail⟩
          rwa [List.append_eq, clauseTokens_append, head?_clauseTokens_append]

namespace Cursor

/-- Finished statements are read, and then whatever follows them. -/
theorem exists_statements_append {cs : List Clause} (hcs : ClausesWellFormed cs)
    (hfinished : Finished cs) {c : Cursor} {ts : List Token}
    (hc : c.tokens = clauseTokens cs ++ ts) :
    ∃ ps d, Passes c (clauseTokens cs) d ∧ ∀ qs e, d.statements.outcome = some (qs, e) →
      c.statements.outcome = some (ps ++ qs, e) := by
  induction cs generalizing c with
  | nil => exact ⟨[], c, .refl c, fun _ _ h => h⟩
  | cons cl cs ih =>
      obtain ⟨hcl, hnext, hcs⟩ := hcs
      rw [clauseTokens, List.append_assoc, ← tokens_skip] at hc
      have hstop : cl.ended = true ∨ Closed 0 (clauseTokens cs ++ ts) ∧
          (clauseTokens cs ++ ts).head? ≠ some (.symbol ';') := by
        cases cs with
        | nil => exact .inl (hfinished cl rfl)
        | cons d cs =>
            obtain ⟨t, us, htokens, hstart⟩ := d.exists_tokens_eq
            refine hnext.imp_right fun hjoins => ?_
            rw [clauseTokens, htokens] at hjoins ⊢
            refine ⟨closed_clause _ hstart hjoins, ?_⟩
            rintro ⟨⟩
            cases hstart
      obtain ⟨ps, d, hread, hpasses, -⟩ := cl.readable hcl c.skip _ (skip_skip c) hc hstop
      have hrest : Finished cs := by
        cases cs with
        | nil => exact nofun
        | cons d cs => exact hfinished.tail
      obtain ⟨qs, e, hmore, hall⟩ := ih hcs hrest (d.tokens_skip ▸ hpasses.rest_tokens hc)
      refine ⟨ps ++ qs, e, .layout (hpasses.trans hmore), fun rs f hrs => ?_⟩
      refine statements_eq_some.mpr (.inl ⟨ps, d, hread, qs ++ rs, hall rs f hrs, ?_⟩)
      rw [List.append_assoc]

theorem clauses_of_statements {c d : Cursor} {ps : List Piece}
    (h : c.statements.outcome = some (ps, d)) (hend : d.skip.rest = []) :
    ∃ cs, ClausesWellFormed cs ∧ c.tokens = clauseTokens cs := by
  obtain ⟨cs, hcs, hpasses, -⟩ := statements_sound (fun e he _ => sound e he) c.size_lt_succ h
  refine ⟨cs, hcs, ?_⟩
  rw [hpasses.tokens_eq, ← tokens_skip d, tokens, hend, tokensOf_nil, List.append_nil]

end Cursor

theorem EndsWithSemicolon.finished {text : String} {cs : List Clause} (h : EndsWithSemicolon text)
    (ht : tokensOf text.toList = clauseTokens cs) : Finished cs := by
  obtain ⟨rest, -, hrest⟩ := h
  exact finished_of_getLast? (by rw [← ht, hrest, List.getLast?_concat])

theorem exists_clauses_of_append {a b : String} (ha : Grammatical a) (hend : EndsWithSemicolon a)
    (h : Grammatical (a ++ b)) :
    ∃ ds, ClausesWellFormed ds ∧ tokensOf b.toList = clauseTokens ds := by
  obtain ⟨cs, hcs, hta⟩ := (grammatical_iff a).mp ha
  obtain ⟨⟨found, last⟩, hfound⟩ := Option.isSome_iff_exists.mp h
  obtain ⟨qs, d, hstatements, hrest, -⟩ := Cursor.program_eq_some.mp hfound
  have htokens : (Cursor.start (a ++ b).toList).skip.tokens =
      clauseTokens cs ++ tokensOf b.toList := by
    rw [Cursor.tokens_skip, ← hta, ← hend.tokensOf_append]
    rfl
  obtain ⟨ps, e, hpasses, hmore⟩ :=
    Cursor.exists_statements_append hcs (hend.finished hta) htokens
  -- What is read behind the first part is what is read of the whole.
  obtain ⟨⟨rs, f⟩, hrs⟩ := Option.isSome_iff_exists.mp (Cursor.isSome_statements e)
  cases hstatements.symm.trans (hmore rs f hrs)
  obtain ⟨ds, hds, hte⟩ := Cursor.clauses_of_statements hrs hrest
  refine ⟨ds, hds, ?_⟩
  rw [← hte, ← hpasses.rest_tokens htokens, Cursor.tokens_skip]

namespace Program

/-- A text is read in two parts where a semicolon ends the first one. -/
theorem parse_append (a b : String) (ha : Grammatical a) (hend : EndsWithSemicolon a) :
    ((∃ report, parse (a ++ b) = .error (.malformed report)) ↔
      ∃ report, parse b = .error (.malformed report)) ∧
    ((¬ ∃ report, parse b = .error (.malformed report)) →
      parse (a ++ b) = do
        let p ← parse a
        let q ← parse b
        return ⟨p.statements ++ q.statements⟩) := by
  obtain ⟨cs, hcs, hta⟩ := (grammatical_iff a).mp ha
  have happend {ds : List Clause} (hds : ClausesWellFormed ds)
      (htb : tokensOf b.toList = clauseTokens ds) :
      ClausesWellFormed (cs ++ ds) ∧ tokensOf (a ++ b).toList = clauseTokens (cs ++ ds) := by
    refine ⟨clausesWellFormed_append hcs (hend.finished hta) hds, ?_⟩
    rw [hend.tokensOf_append, hta, htb, clauseTokens_append]
  constructor
  · rw [malformed_iff, malformed_iff]
    refine not_congr ⟨fun h => ?_, fun h => ?_⟩
    · exact (grammatical_iff b).mpr (exists_clauses_of_append ha hend h)
    · obtain ⟨ds, hds, htb⟩ := (grammatical_iff b).mp h
      exact (grammatical_iff (a ++ b)).mpr ⟨_, happend hds htb⟩
  · intro hb
    rw [malformed_iff, Classical.not_not] at hb
    obtain ⟨ds, hds, htb⟩ := (grammatical_iff b).mp hb
    obtain ⟨hall, htokens⟩ := happend hds htb
    rw [parse_eq_inRange hcs hta, parse_eq_inRange hds htb, parse_eq_inRange hall htokens,
      clauseTokens_append, toStatements_append]
    simp only [pure, Except.pure, inRange_bind_ok]
    exact (inRange_bind _ _ _ fun p : Program => Program.mk (p.statements ++ toStatements ds)).symm

/-- Without the semicolon the sign would go on the value of the binding. -/
theorem parse_append_negation :
    Grammatical "let a = 1;" ∧ EndsWithSemicolon "let a = 1;" ∧
      parse ("let a = 1;" ++ "-a") = do
        let p ← parse "let a = 1;"
        let q ← parse "-a"
        return ⟨p.statements ++ q.statements⟩ := by
  have hfirst : Grammatical "let a = 1;" := by
    refine (grammatical_iff _).mpr ⟨[.binding "a" (.numeral "1") true], ?_, by decide +kernel⟩
    exact ⟨trivial, .inl rfl, trivial⟩
  have hsecond : Grammatical "-a" := by
    refine (grammatical_iff _).mpr
      ⟨[.expression (.unary .neg (.name "a")) false], ?_, by decide +kernel⟩
    exact ⟨⟨trivial, by decide⟩, .inr rfl, trivial⟩
  have hend : EndsWithSemicolon "let a = 1;" := ⟨"let a = 1".toList, by decide, by decide +kernel⟩
  refine ⟨hfirst, hend, (parse_append _ _ hfirst hend).2 fun hmalformed => ?_⟩
  exact (malformed_iff _).mp hmalformed hsecond

end Program
end MonkeyLang
