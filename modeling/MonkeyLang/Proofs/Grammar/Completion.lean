import MonkeyLang.Proofs.Grammar.Soundness
import MonkeyLang.Proofs.Lexing.Writing

/-!
What the rules read, as properties of lists of tokens, and which tokens can be completed to such a
list. Where a rule has stopped in its middle, there are tokens that can be written and bring it to
its end.
-/
namespace MonkeyLang

variable {P Q : List Token → Prop} {ts us : List Token} {r : Nat}

/-- Tokens can be written behind these that give a list with the property. -/
def Completable (P : List Token → Prop) (ts : List Token) : Prop :=
  ∃ us, (∀ t ∈ us, t.Legible) ∧ P (ts ++ us)

theorem Completable.whole (h : P ts) : Completable P ts :=
  ⟨[], List.forall_mem_nil _, by rwa [List.append_nil]⟩

theorem Completable.extend (h : Completable P us) (hP : ∀ us, P us → Completable Q (ts ++ us)) :
    Completable Q (ts ++ us) := by
  obtain ⟨vs, hvs, hus⟩ := h
  obtain ⟨ws, hws, hts⟩ := hP _ hus
  refine ⟨vs ++ ws, fun t ht => (List.mem_append.mp ht).elim (hvs t) (hws t), ?_⟩
  rwa [List.append_assoc, ← List.append_assoc us, ← List.append_assoc]

theorem legible_name : (Token.name "a").Legible := by decide

/-- Items set apart by commas. -/
def IsList (P : List Token → Prop) (ts : List Token) : Prop :=
  ∃ items, (∀ item ∈ items, P item) ∧ separated items = ts

/-- Items with a comma before each of them. -/
def IsMore (P : List Token → Prop) (ts : List Token) : Prop :=
  ∃ items : List (List Token), (∀ item ∈ items, P item) ∧ items.flatMap (.symbol ',' :: ·) = ts

/-- Something between two marks. -/
def Between (o z : Char) (P : List Token → Prop) (ts : List Token) : Prop :=
  ∃ us, P us ∧ .symbol o :: us ++ [.symbol z] = ts

theorem isList_nil : IsList P [] := ⟨[], List.forall_mem_nil _, rfl⟩

theorem isMore_nil : IsMore P [] := ⟨[], List.forall_mem_nil _, rfl⟩

theorem IsMore.cons (hts : P ts) (hus : IsMore P us) : IsMore P (.symbol ',' :: ts ++ us) := by
  obtain ⟨items, hitems, rfl⟩ := hus
  exact ⟨ts :: items, List.forall_mem_cons.mpr ⟨hts, hitems⟩, List.flatMap_cons⟩

theorem isList_append (hts : P ts) (hus : IsMore P us) : IsList P (ts ++ us) := by
  obtain ⟨items, hitems, rfl⟩ := hus
  exact ⟨ts :: items, List.forall_mem_cons.mpr ⟨hts, hitems⟩, separated_cons ts items⟩

/-- A well-formed phrase that is read at a rank. -/
def IsPhrase (rank : Nat) (ts : List Token) : Prop :=
  ∃ p : Phrase, p.WellFormed ∧ rank ≤ p.precedence ∧ p.tokens = ts

/-- Behind a phrase that is read at a rank, these tokens make another one. -/
def Extends (rank : Nat) (ts : List Token) : Prop :=
  ∀ us, IsPhrase rank us → IsPhrase rank (us ++ ts)

def IsParameter (ts : List Token) : Prop := ∃ name, [.name name] = ts

/-- A well-formed clause with its semicolon, which no clause behind it can go on. -/
def IsClause (ts : List Token) : Prop :=
  ∃ cl : Clause, cl.WellFormed ∧ cl.ended = true ∧ cl.tokens = ts

def IsClauses (ts : List Token) : Prop := ∃ cs, ClausesWellFormed cs ∧ clauseTokens cs = ts

/-- The other branch of a conditional, which may be absent. -/
def IsAlternative (ts : List Token) : Prop :=
  ts = [] ∨ ∃ us, Between '\x7b' '\x7d' IsClauses us ∧ .keyword .elseWord :: us = ts

theorem IsPhrase.mono {s : Nat} (h : IsPhrase s ts) (hle : r ≤ s) : IsPhrase r ts := by
  obtain ⟨p, hp, hprec, htokens⟩ := h
  exact ⟨p, hp, Nat.le_trans hle hprec, htokens⟩

theorem isPhrase_name (name : String) (hr : r ≤ 7) : IsPhrase r [.name name] :=
  ⟨.name name, trivial, hr, rfl⟩

theorem completable_phrase (hr : r ≤ 7) : Completable (IsPhrase r) [] :=
  ⟨[.name "a"], by simp [legible_name], isPhrase_name _ hr⟩

theorem isPhrase_grouped (h : IsPhrase 0 ts) : IsPhrase 7 (parenthesized ts) := by
  obtain ⟨p, hp, -, rfl⟩ := h
  exact ⟨.grouped p, hp, Nat.le_refl 7, rfl⟩

theorem isPhrase_signed (ops : List UnaryOp) (h : IsPhrase 5 ts) :
    IsPhrase 5 (ops.map UnaryOp.token ++ ts) := by
  obtain ⟨p, hp, hprec, rfl⟩ := h
  obtain ⟨hsigned, hrank⟩ := p.wellFormed_signed ops hp hprec
  exact ⟨p.signed ops, hsigned, hrank, p.tokens_signed ops⟩

theorem exists_names (items : List (List Token)) (h : ∀ item ∈ items, IsParameter item) :
    ∃ names : List String, names.map ([.name ·]) = items := by
  induction items with
  | nil => exact ⟨[], rfl⟩
  | cons item items ih =>
      obtain ⟨⟨name, rfl⟩, hitems⟩ := List.forall_mem_cons.mp h
      obtain ⟨names, rfl⟩ := ih hitems
      exact ⟨name :: names, rfl⟩

theorem exists_phrases (items : List (List Token)) (h : ∀ item ∈ items, IsPhrase 0 item) :
    ∃ ps, PhrasesWellFormed ps ∧ phraseTokens ps = items := by
  induction items with
  | nil => exact ⟨[], trivial, rfl⟩
  | cons item items ih =>
      obtain ⟨⟨p, hp, -, rfl⟩, hitems⟩ := List.forall_mem_cons.mp h
      obtain ⟨ps, hps, rfl⟩ := ih hitems
      exact ⟨p :: ps, ⟨hp, hps⟩, rfl⟩

theorem between_parameters (names : List String) :
    Between '(' ')' (IsList IsParameter) (parenthesized (separated (names.map ([.name ·])))) := by
  refine ⟨_, ⟨_, fun item hitem => ?_, rfl⟩, rfl⟩
  obtain ⟨name, -, rfl⟩ := List.mem_map.mp hitem
  exact ⟨name, rfl⟩

theorem between_arguments {args : List Phrase} (h : PhrasesWellFormed args) :
    Between '(' ')' (IsList (IsPhrase 0)) (parenthesized (separated (phraseTokens args))) := by
  refine ⟨_, ⟨_, ?_, rfl⟩, rfl⟩
  induction args with
  | nil => exact List.forall_mem_nil _
  | cons p args ih =>
      exact List.forall_mem_cons.mpr ⟨⟨p, h.1, Nat.zero_le _, rfl⟩, ih h.2⟩

theorem isPhrase_function (hparams : Between '(' ')' (IsList IsParameter) ts)
    (hbody : Between '\x7b' '\x7d' IsClauses us) :
    IsPhrase 7 (.keyword .fnWord :: ts ++ us) := by
  obtain ⟨_, ⟨items, hitems, rfl⟩, rfl⟩ := hparams
  obtain ⟨_, ⟨cs, hcs, rfl⟩, rfl⟩ := hbody
  obtain ⟨names, rfl⟩ := exists_names items hitems
  exact ⟨.function names cs, hcs, Nat.le_refl 7, rfl⟩

theorem isPhrase_conditional {vs : List Token} (htest : IsPhrase 0 ts)
    (hyes : Between '\x7b' '\x7d' IsClauses us) (hno : IsAlternative vs) :
    IsPhrase 7 (.keyword .ifWord :: parenthesized ts ++ us ++ vs) := by
  obtain ⟨p, hp, -, rfl⟩ := htest
  obtain ⟨_, ⟨cs, hcs, rfl⟩, rfl⟩ := hyes
  obtain rfl | ⟨_, ⟨_, ⟨ds, hds, rfl⟩, rfl⟩, rfl⟩ := hno
  · rw [List.append_nil]
    exact ⟨.conditional p cs none, ⟨hp, hcs⟩, Nat.le_refl 7, rfl⟩
  · exact ⟨.conditional p cs (some ds), ⟨hp, hcs, hds⟩, Nat.le_refl 7, rfl⟩

theorem extends_nil : Extends r [] := by
  intro us hus
  rwa [List.append_nil]

theorem Extends.append (hts : Extends r ts) (hus : Extends r us) : Extends r (ts ++ us) := by
  intro vs hvs
  rw [← List.append_assoc]
  exact hus _ (hts _ hvs)

theorem extends_operation {op : BinaryOp} (h : IsPhrase (op.level.rank + 1) ts) :
    Extends op.level.rank (op.token :: ts) := by
  rintro _ ⟨left, hleft, hrank, rfl⟩
  obtain ⟨right, hright, hlt, rfl⟩ := h
  exact ⟨.binary left op right, ⟨hleft, hright, hrank, hlt⟩, Nat.le_refl _, rfl⟩

theorem extends_arguments (h : Between '(' ')' (IsList (IsPhrase 0)) ts) : Extends 6 ts := by
  rintro _ ⟨callee, hcallee, hrank, rfl⟩
  obtain ⟨_, ⟨items, hitems, rfl⟩, rfl⟩ := h
  obtain ⟨args, hargs, rfl⟩ := exists_phrases items hitems
  exact ⟨.call callee args, ⟨hcallee, hrank, hargs⟩, Nat.le_refl 6, rfl⟩

theorem isClause_binding (name : String) (h : IsPhrase 0 ts) :
    IsClause (.keyword .letWord :: .name name :: .symbol '=' :: ts ++ [.symbol ';']) := by
  obtain ⟨p, hp, -, rfl⟩ := h
  exact ⟨.binding name p true, hp, rfl, rfl⟩

theorem isClause_returning (h : IsPhrase 0 ts) :
    IsClause (.keyword .returnWord :: ts ++ [.symbol ';']) := by
  obtain ⟨p, hp, -, rfl⟩ := h
  exact ⟨.returning p true, hp, rfl, rfl⟩

theorem isClause_expression (h : IsPhrase 0 ts) : IsClause (ts ++ [.symbol ';']) := by
  obtain ⟨p, hp, -, rfl⟩ := h
  exact ⟨.expression p true, hp, rfl, rfl⟩

theorem completable_clause : Completable IsClause [] :=
  ⟨[.name "a", .symbol ';'], by decide, isClause_expression (isPhrase_name "a" (Nat.zero_le 7))⟩

theorem isClauses_nil : IsClauses [] := ⟨[], trivial, rfl⟩

theorem IsClause.isClauses (h : IsClause ts) : IsClauses ts := by
  obtain ⟨cl, hcl, hended, rfl⟩ := h
  exact ⟨[cl], ⟨hcl, .inl hended, trivial⟩, List.append_nil _⟩

theorem between_braces_nil : Between '\x7b' '\x7d' IsClauses (braced []) :=
  ⟨[], isClauses_nil, rfl⟩

end MonkeyLang
