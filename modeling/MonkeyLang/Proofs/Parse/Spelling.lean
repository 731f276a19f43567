import MonkeyLang.Proofs.Parse.Characterization
import MonkeyLang.Proofs.Program.Legal

/-!
The ways of writing a program. Each construct has its concrete form; an operand that binds less
tightly than it has to is put in parentheses, and any other expression may be. A statement may do
without its semicolon where the next token does not go on it.
-/
namespace MonkeyLang

/-- How tightly the outermost construct of an expression binds. -/
def Expression.level : Expression → Nat
  | .binary _ op _ =>
      match op with
      | .eq | .neq => 1
      | .lt | .gt => 2
      | .add | .sub => 3
      | .mul | .div => 4
  | .unary _ _ => 5
  | .call _ _ => 6
  | .name _ | .integer _ | .boolean _ | .conditional _ _ _ | .function _ _ => 7

/-- What is written: an expression without parentheses of its own, an expression where one of at
least a level is asked for, and so on. -/
inductive Form where
  | bare (e : Expression)
  | operand (level : Nat) (e : Expression)
  | items (es : List Expression)
  | statement (s : Statement)
  | statements (ss : List Statement)

/-- The tokens are a way of writing a program or a part of one. -/
inductive Spells : Form → List Token → Prop
  | name (text : String) : Spells (.bare (.name text)) [.name text]
  | integer {digits : String} {value : Int64} (h : IsNumeral digits)
      (hvalue : numeralValue digits.toList = value.toInt) :
      Spells (.bare (.integer value)) [.numeral digits]
  | boolean (value : Bool) : Spells (.bare (.boolean value)) [.keyword (.ofBool value)]
  | unary {e : Expression} {ts : List Token} (op : UnaryOp) (operand : Spells (.operand 5 e) ts) :
      Spells (.bare (.unary op e)) (op.token :: ts)
  | binary {a b : Expression} {ts us : List Token} (op : BinaryOp)
      (left : Spells (.operand (Expression.level (.binary a op b)) a) ts)
      (right : Spells (.operand (Expression.level (.binary a op b) + 1) b) us) :
      Spells (.bare (.binary a op b)) (ts ++ op.token :: us)
  | ifThen {e : Expression} {yes : List Statement} {ts us : List Token}
      (test : Spells (.operand 0 e) ts) (body : Spells (.statements yes) us) :
      Spells (.bare (.conditional e yes none))
        (.keyword .ifWord :: parenthesized ts ++ braced us)
  | ifThenElse {e : Expression} {yes no : List Statement} {ts us vs : List Token}
      (test : Spells (.operand 0 e) ts) (body : Spells (.statements yes) us)
      (alternative : Spells (.statements no) vs) :
      Spells (.bare (.conditional e yes (some no)))
        (.keyword .ifWord :: parenthesized ts ++ braced us ++ .keyword .elseWord :: braced vs)
  | function {body : List Statement} {ts : List Token} (params : List String)
      (inner : Spells (.statements body) ts) :
      Spells (.bare (.function params body))
        (.keyword .fnWord :: parenthesized (separated (params.map ([.name ·]))) ++ braced ts)
  | call {e : Expression} {args : List Expression} {ts us : List Token}
      (callee : Spells (.operand 6 e) ts) (list : Spells (.items args) us) :
      Spells (.bare (.call e args)) (ts ++ parenthesized us)
  | unwrapped {level : Nat} {e : Expression} {ts : List Token} (h : level ≤ e.level)
      (bare : Spells (.bare e) ts) : Spells (.operand level e) ts
  | wrapped {level : Nat} {e : Expression} {ts : List Token} (inner : Spells (.operand 0 e) ts) :
      Spells (.operand level e) (parenthesized ts)
  | noItem : Spells (.items []) []
  | item {e : Expression} {ts : List Token} (only : Spells (.operand 0 e) ts) :
      Spells (.items [e]) ts
  | moreItems {e next : Expression} {es : List Expression} {ts us : List Token}
      (first : Spells (.operand 0 e) ts) (more : Spells (.items (next :: es)) us) :
      Spells (.items (e :: next :: es)) (ts ++ .symbol ',' :: us)
  | binding {e : Expression} {ts : List Token} (name : String) (value : Spells (.operand 0 e) ts) :
      Spells (.statement (.binding name e))
        (.keyword .letWord :: .name name :: .symbol '=' :: ts)
  | returning {e : Expression} {ts : List Token} (value : Spells (.operand 0 e) ts) :
      Spells (.statement (.returning e)) (.keyword .returnWord :: ts)
  | expression {e : Expression} {ts : List Token} (value : Spells (.operand 0 e) ts) :
      Spells (.statement (.expression e)) ts
  | noStatement : Spells (.statements []) []
  | ended {s : Statement} {ss : List Statement} {ts us : List Token}
      (first : Spells (.statement s) ts) (more : Spells (.statements ss) us) :
      Spells (.statements (s :: ss)) (ts ++ .symbol ';' :: us)
  | unended {s : Statement} {ss : List Statement} {ts us : List Token}
      (first : Spells (.statement s) ts) (more : Spells (.statements ss) us)
      (h : ss = [] ∨ ∀ t ∈ us.head?, t ≠ .symbol '(' ∧ t ≠ .symbol '-') :
      Spells (.statements (s :: ss)) (ts ++ us)

theorem Expression.level_binary (a b : Expression) (op : BinaryOp) :
    level (.binary a op b) = op.level.rank := by
  cases op <;> rfl

theorem Expression.level_binary_lt (a b : Expression) (op : BinaryOp) :
    level (.binary a op b) < 6 := by
  have := op.level.rank_le
  rw [level_binary]
  omega

theorem Int64.ofNat_of_toInt_eq {n : Nat} {value : Int64} (h : n = value.toInt) :
    Int64.ofNat n = value := by
  rw [← Int64.ofInt_eq_ofNat, h, Int64.ofInt_toInt]

theorem isOversized_of_toInt_eq {digits : List Char} {value : Int64}
    (h : numeralValue digits = value.toInt) : isOversized digits = false := by
  have hlt := value.toInt_lt
  rw [← h] at hlt
  simp only [isOversized, Nat.pow_eq, decide_eq_false_iff_not]
  omega

/-- The phrase or the clauses that are written. -/
def Denotes : Form → List Token → Prop
  | .bare e, ts =>
      ∃ p : Phrase, p.WellFormed ∧ e.level = p.precedence ∧ p.tokens = ts ∧ p.toExpression = e
  | .operand level e, ts => level ≤ 7 →
      ∃ p : Phrase, p.WellFormed ∧ level ≤ p.precedence ∧ p.tokens = ts ∧ p.toExpression = e
  | .items es, ts =>
      ∃ ps, PhrasesWellFormed ps ∧ separated (phraseTokens ps) = ts ∧ toExpressions ps = es
  | .statement s, ts => ∀ ended, ∃ c : Clause, c.WellFormed ∧ c.ended = ended ∧
      c.tokens = ts ++ ending ended ∧ c.toStatement = s
  | .statements ss, ts => ∃ cs, ClausesWellFormed cs ∧ clauseTokens cs = ts ∧ toStatements cs = ss

theorem Spells.denotes {form : Form} {ts : List Token} (h : Spells form ts) : Denotes form ts := by
  induction h with
  | name text => exact ⟨.name text, trivial, rfl, rfl, rfl⟩
  | @integer digits value hd hvalue =>
      refine ⟨.numeral digits, trivial, rfl, rfl, ?_⟩
      rw [Phrase.toExpression, Int64.ofNat_of_toInt_eq hvalue]
  | boolean value => exact ⟨.boolean value, trivial, rfl, rfl, rfl⟩
  | unary op operand ih =>
      obtain ⟨p, hp, hprec, rfl, rfl⟩ := ih (by decide)
      exact ⟨.unary op p, ⟨hp, hprec⟩, rfl, rfl, rfl⟩
  | @binary a b _ _ op left right ihl ihr =>
      have hlt := Nat.lt_succ_of_lt (Expression.level_binary_lt a b op)
      obtain ⟨p, hp, hprec, rfl, rfl⟩ := ihl (Nat.le_of_lt hlt)
      obtain ⟨q, hq, hprec', rfl, rfl⟩ := ihr hlt
      rw [Expression.level_binary] at hprec hprec'
      exact ⟨.binary p op q, ⟨hp, hq, hprec, hprec'⟩, Expression.level_binary _ _ op, rfl, rfl⟩
  | ifThen test body ihe ihs =>
      obtain ⟨p, hp, -, rfl, rfl⟩ := ihe (by decide)
      obtain ⟨cs, hcs, rfl, rfl⟩ := ihs
      exact ⟨.conditional p cs none, ⟨hp, hcs⟩, rfl, rfl, rfl⟩
  | ifThenElse test body alternative ihe ihs ihn =>
      obtain ⟨p, hp, -, rfl, rfl⟩ := ihe (by decide)
      obtain ⟨cs, hcs, rfl, rfl⟩ := ihs
      obtain ⟨ds, hds, rfl, rfl⟩ := ihn
      exact ⟨.conditional p cs (some ds), ⟨hp, hcs, hds⟩, rfl, rfl, rfl⟩
  | function params inner ih =>
      obtain ⟨cs, hcs, rfl, rfl⟩ := ih
      exact ⟨.function params cs, hcs, rfl, rfl, rfl⟩
  | call callee list ihe ihes =>
      obtain ⟨p, hp, hprec, rfl, rfl⟩ := ihe (by decide)
      obtain ⟨ps, hps, rfl, rfl⟩ := ihes
      exact ⟨.call p ps, ⟨hp, hprec, hps⟩, rfl, rfl, rfl⟩
  | unwrapped hlevel bare ih =>
      obtain ⟨p, hp, hprec, htokens, hvalue⟩ := ih
      exact fun _ => ⟨p, hp, hprec ▸ hlevel, htokens, hvalue⟩
  | wrapped inner ih =>
      obtain ⟨p, hp, -, rfl, rfl⟩ := ih (by decide)
      exact fun hle => ⟨.grouped p, hp, hle, rfl, rfl⟩
  | noItem => exact ⟨[], trivial, rfl, rfl⟩
  | item only ih =>
      obtain ⟨p, hp, -, rfl, rfl⟩ := ih (by decide)
      exact ⟨[p], ⟨hp, trivial⟩, rfl, rfl⟩
  | moreItems first more ihe ihes =>
      obtain ⟨p, hp, -, rfl, rfl⟩ := ihe (by decide)
      obtain ⟨ps, hps, rfl, hes⟩ := ihes
      refine ⟨p :: ps, ⟨hp, hps⟩, ?_, by rw [toExpressions, hes]⟩
      cases ps with
      | nil => cases hes
      | cons q qs => rfl
  | binding name value ih =>
      obtain ⟨p, hp, -, rfl, rfl⟩ := ih (by decide)
      exact fun ended => ⟨.binding name p ended, hp, rfl, rfl, rfl⟩
  | returning value ih =>
      obtain ⟨p, hp, -, rfl, rfl⟩ := ih (by decide)
      exact fun ended => ⟨.returning p ended, hp, rfl, rfl, rfl⟩
  | expression value ih =>
      obtain ⟨p, hp, -, rfl, rfl⟩ := ih (by decide)
      exact fun ended => ⟨.expression p ended, hp, rfl, rfl, rfl⟩
  | noStatement => exact ⟨[], trivial, rfl, rfl⟩
  | ended first more ihs ihss =>
      obtain ⟨c, hc, hended, htokens, rfl⟩ := ihs true
      obtain ⟨cs, hcs, rfl, rfl⟩ := ihss
      refine ⟨c :: cs, ⟨hc, .inl hended, hcs⟩, ?_, rfl⟩
      rw [clauseTokens, htokens, List.append_assoc]
      rfl
  | unended first more hnext ihs ihss =>
      obtain ⟨c, hc, -, htokens, rfl⟩ := ihs false
      obtain ⟨cs, hcs, rfl, rfl⟩ := ihss
      refine ⟨c :: cs, ⟨hc, .inr ?_, hcs⟩, ?_, rfl⟩
      · cases cs with
        | nil => rfl
        | cons d ds =>
            -- The next token is the first one of the next clause, and there is one.
            obtain ⟨t, us, htokens', -⟩ := d.exists_tokens_eq
            rw [clauseTokens, htokens'] at hnext ⊢
            obtain ⟨hparen, hminus⟩ := hnext.resolve_left (List.cons_ne_nil _ _) t rfl
            simp [Token.joins, hparen, hminus]
      · rw [clauseTokens, htokens, List.append_assoc]
        rfl

theorem Spells.firstOversized_eq {form : Form} {ts : List Token} (h : Spells form ts) :
    firstOversized ts = none := by
  induction h with
  | @integer digits value _ hvalue =>
      simp [Token.oversized?, isOversized_of_toInt_eq hvalue]
  | name _ | boolean _ | noItem | noStatement => simp [Token.oversized?]
  | unary op _ ih => simp [ih]
  | binary op _ _ ihl ihr => simp [ihl, ihr]
  | ifThen _ _ ihe ihs => simp [Token.oversized?, ihe, ihs]
  | ifThenElse _ _ _ ihe ihs ihn => simp [Token.oversized?, ihe, ihs, ihn]
  | function params _ ih => simp [Token.oversized?, firstOversized_names, ih]
  | call _ _ ihe ihes => simp [ihe, ihes]
  | unwrapped _ _ ih | wrapped _ ih | item _ ih | expression _ ih => simpa using ih
  | moreItems _ _ ihe ihes => simp [Token.oversized?, ihe, ihes]
  | binding _ _ ih | returning _ ih => simp [Token.oversized?, ih]
  | ended _ _ ihs ihss => simp [Token.oversized?, ihs, ihss]
  | unended _ _ _ ihs ihss => simp [ihs, ihss]

/-- The names and the integers of what is written are legal. -/
def Form.Legal : Form → Prop
  | bare e | operand _ e => e.Legal
  | items es => ExpressionsLegal es
  | statement s => s.Legal
  | statements ss => StatementsLegal ss

theorem legible_parenthesized {ts : List Token} (h : ∀ t ∈ ts, t.Legible) :
    ∀ t ∈ parenthesized ts, t.Legible :=
  List.forall_mem_cons.mpr ⟨by decide, List.forall_mem_append.mpr ⟨h, by decide⟩⟩

theorem legible_braced {ts : List Token} (h : ∀ t ∈ ts, t.Legible) :
    ∀ t ∈ braced ts, t.Legible :=
  List.forall_mem_cons.mpr ⟨by decide, List.forall_mem_append.mpr ⟨h, by decide⟩⟩

theorem legible_ifThen {ts us : List Token} (h : ∀ t ∈ ts, t.Legible) (h' : ∀ t ∈ us, t.Legible) :
    ∀ t ∈ .keyword .ifWord :: parenthesized ts ++ braced us, t.Legible :=
  List.forall_mem_append.mpr
    ⟨List.forall_mem_cons.mpr ⟨trivial, legible_parenthesized h⟩, legible_braced h'⟩

theorem legible_names {names : List String} (h : ∀ name ∈ names, IsName name) :
    ∀ t ∈ separated (names.map ([.name ·])), t.Legible := by
  cases names with
  | nil => exact fun t ht => nomatch ht
  | cons name names =>
      rw [List.map_cons, separated_cons]
      refine List.forall_mem_cons.mpr ⟨h name List.mem_cons_self, fun t ht => ?_⟩
      obtain ⟨item, hitem, ht⟩ := List.mem_flatMap.mp ht
      obtain ⟨other, hother, rfl⟩ := List.mem_map.mp hitem
      rcases List.mem_cons.mp ht with rfl | ht
      · decide
      · rw [List.mem_singleton.mp ht]
        exact h other (List.mem_cons_of_mem name hother)

theorem Spells.legible {form : Form} {ts : List Token} (h : Spells form ts) (hl : form.Legal) :
    ∀ t ∈ ts, t.Legible := by
  induction h with
  | name _ => exact List.forall_mem_cons.mpr ⟨hl, by decide⟩
  | integer hd _ => exact List.forall_mem_cons.mpr ⟨hd, by decide⟩
  | boolean _ => exact List.forall_mem_cons.mpr ⟨trivial, by decide⟩
  | unary op _ ih => exact List.forall_mem_cons.mpr ⟨by cases op <;> decide, ih hl⟩
  | binary op _ _ ihl ihr =>
      have hop : op.token.Legible := by cases op <;> decide
      exact List.forall_mem_append.mpr ⟨ihl hl.1, List.forall_mem_cons.mpr ⟨hop, ihr hl.2⟩⟩
  | ifThen _ _ ihe ihs => exact legible_ifThen (ihe hl.1) (ihs hl.2)
  | ifThenElse _ _ _ ihe ihs ihn =>
      exact List.forall_mem_append.mpr ⟨legible_ifThen (ihe hl.1) (ihs hl.2.1),
        List.forall_mem_cons.mpr ⟨trivial, legible_braced (ihn hl.2.2)⟩⟩
  | function params _ ih =>
      exact List.forall_mem_append.mpr ⟨List.forall_mem_cons.mpr
        ⟨trivial, legible_parenthesized (legible_names hl.1)⟩, legible_braced (ih hl.2)⟩
  | call _ _ ihe ihes =>
      exact List.forall_mem_append.mpr ⟨ihe hl.1, legible_parenthesized (ihes hl.2)⟩
  | unwrapped _ _ ih | expression _ ih => exact ih hl
  | wrapped _ ih => exact legible_parenthesized (ih hl)
  | item _ ih => exact ih hl.1
  | noItem | noStatement => exact fun t ht => nomatch ht
  | moreItems _ _ ihe ihes =>
      exact List.forall_mem_append.mpr
        ⟨ihe hl.1, List.forall_mem_cons.mpr ⟨by decide, ihes hl.2⟩⟩
  | binding name _ ih =>
      exact List.forall_mem_cons.mpr ⟨trivial, List.forall_mem_cons.mpr
        ⟨hl.1, List.forall_mem_cons.mpr ⟨by decide, ih hl.2⟩⟩⟩
  | returning _ ih => exact List.forall_mem_cons.mpr ⟨trivial, ih hl⟩
  | ended _ _ ihs ihss =>
      exact List.forall_mem_append.mpr
        ⟨ihs hl.1, List.forall_mem_cons.mpr ⟨by decide, ihss hl.2⟩⟩
  | unended _ _ _ ihs ihss => exact List.forall_mem_append.mpr ⟨ihs hl.1, ihss hl.2⟩

namespace Program

theorem parse_eq_ok {p : Program} {ts : List Token} {text : String}
    (h : Spells (.statements p.statements) ts) (ht : tokensOf text.toList = ts) :
    parse text = .ok p := by
  obtain ⟨cs, hcs, htokens, hvalue⟩ := h.denotes
  rw [parse_eq_inRange hcs (ht.trans htokens.symm), htokens, inRange_of_none h.firstOversized_eq,
    hvalue]

/-- Every way of writing a program is read as that program. -/
theorem parse_of_spells (p : Program) (ts : List Token) (hp : p.Legal)
    (h : Spells (.statements p.statements) ts) :
    parse (spaced ts) = .ok p ∧ ∀ text : String, tokensOf text.toList = ts → parse text = .ok p :=
  ⟨parse_eq_ok h (tokensOf_spaced (h.legible hp)), fun _ ht => parse_eq_ok h ht⟩

/-- The tokens of `a * (007 + b)`. -/
theorem parse_of_spells_product :
    parse (spaced [.name "a", .symbol '*', .symbol '(', .numeral "007", .symbol '+', .name "b",
        .symbol ')']) =
      .ok ⟨[.expression (.binary (.name "a") .mul (.binary (.integer 7) .add (.name "b")))]⟩ ∧
    ∀ text : String, tokensOf text.toList =
        [.name "a", .symbol '*', .symbol '(', .numeral "007", .symbol '+', .name "b",
          .symbol ')'] →
      parse text =
        .ok ⟨[.expression (.binary (.name "a") .mul (.binary (.integer 7) .add (.name "b")))]⟩ := by
  have hsum : Spells (.operand 5 (.binary (.integer 7) .add (.name "b")))
      (parenthesized [.numeral "007", .symbol '+', .name "b"]) :=
    .wrapped (.unwrapped (by decide) (.binary .add
      (.unwrapped (by decide) (.integer (by decide) (by decide)))
      (.unwrapped (by decide) (.name "b"))))
  have hproduct : Spells (.operand 0 (.binary (.name "a") .mul (.binary (.integer 7) .add
      (.name "b")))) (.name "a" :: .symbol '*' ::
        parenthesized [.numeral "007", .symbol '+', .name "b"]) :=
    .unwrapped (by decide) (.binary .mul (.unwrapped (by decide) (.name "a")) hsum)
  refine parse_of_spells ⟨_⟩ _ ?_ (.unended (.expression hproduct) .noStatement (.inl rfl))
  simp only [Legal, StatementsLegal, Statement.Legal, Expression.Legal]
  decide

end Program
end MonkeyLang
