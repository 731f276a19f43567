import MonkeyLang.Proofs.Journal.Visits
import MonkeyLang.Proofs.Parse.Legality

/-!
Pieces on their own. The text of a piece that stands for a statement or for an expression, cut out
of its place, is read as that statement or that expression: what stood around it in the whole text
has no part in what it means.
-/
namespace MonkeyLang

/-- Whether the rule stands for a statement. -/
def Rule.isStatement : Rule → Bool
  | letStatement | returnStatement | expressionStatement => true
  | _ => false

/-- Whether the rule stands for an expression. -/
def Rule.isExpression : Rule → Bool
  | expression | equality | comparison | sum | product | unary | call | ifExpression
  | functionLiteral | integer | boolean | identifier => true
  | _ => false

/-- The text of the piece, read alone, means what is built from the piece. -/
def Piece.ReadsAlone (x : Piece) : Prop :=
  (x.rule.isStatement = true → ∃ s, x.toStatement.outcome = .ok s ∧
    Program.parse (String.ofList x.text) = .ok ⟨[s]⟩) ∧
  (x.rule.isExpression = true → ∃ e, x.toExpression.outcome = .ok e ∧
    Program.parse (String.ofList x.text) = .ok ⟨[.expression e]⟩)

/-- The pieces of a text, each before those inside it. -/
def piecesOf (text : String) : List Piece :=
  match (Cursor.start text.toList).program.outcome with
  | some found => Piece.subpiecesOf found.1
  | none => []

def Part.tokens : Part → List Token
  | phrase _ p | operands _ p | calls p => p.tokens
  | items ps => separated (phraseTokens ps)
  | block cs | clauses cs => clauseTokens cs
  | clause c => c.tokens

def Part.WellFormed : Part → Prop
  | phrase _ p | operands _ p | calls p => p.WellFormed
  | items ps => PhrasesWellFormed ps
  | block cs | clauses cs => ClausesWellFormed cs
  | clause c => c.WellFormed

theorem Phrase.wellFormed_of_signed {p : Phrase} {ops : List UnaryOp}
    (h : (p.signed ops).WellFormed) : p.WellFormed := by
  induction ops with
  | nil => exact h
  | cons op ops ih => exact ih h.1

namespace Piece

theorem readsAlone_of_rule {x : Piece} (hs : x.rule.isStatement = false)
    (he : x.rule.isExpression = false) : x.ReadsAlone := by
  constructor
  · intro h
    rw [hs] at h
    cases h
  · intro h
    rw [he] at h
    cases h

theorem readsAlone_of_phrase {rank : Nat} {p : Phrase} {x : Piece}
    (htree : Tree (.phrase rank p) [x]) (hrule : x.rule.isStatement = false) (hp : p.WellFormed)
    (hfits : Fits p.tokens) (htext : tokensOf x.text = p.tokens) : x.ReadsAlone := by
  constructor
  · intro h
    rw [hrule] at h
    cases h
  · intro _
    obtain ⟨y, hy, -, -, hout⟩ := htree.builds
    cases hy
    have hcs : ClausesWellFormed [.expression p false] := ⟨hp, .inr rfl, trivial⟩
    have htokens : clauseTokens [.expression p false] = p.tokens := by
      simp [clauseTokens, Clause.tokens, ending]
    refine ⟨p.toExpression, hout.trans (inRange_of_none hfits.firstOversized _), ?_⟩
    rw [Program.parse_eq_inRange hcs (by rw [String.toList_ofList, htext, htokens]), htokens]
    exact inRange_of_none hfits.firstOversized _

theorem readsAlone_of_clause {c : Clause} {x : Piece} (htree : Tree (.clause c) [x])
    (hrule : x.rule.isExpression = false) (hc : c.WellFormed) (hfits : Fits c.tokens)
    (htext : tokensOf x.text = c.tokens) : x.ReadsAlone := by
  constructor
  · intro _
    obtain ⟨y, hy, -, hout⟩ := htree.builds
    cases hy
    have hcs : ClausesWellFormed [c] := ⟨hc, .inr rfl, trivial⟩
    have htokens : clauseTokens [c] = c.tokens := by simp [clauseTokens]
    refine ⟨c.toStatement, hout.trans (inRange_of_none hfits.firstOversized _), ?_⟩
    rw [Program.parse_eq_inRange hcs (by rw [String.toList_ofList, htext, htokens]), htokens]
    exact inRange_of_none hfits.firstOversized _
  · intro h
    rw [hrule] at h
    cases h

/-- Some pieces and all pieces inside them read alone. -/
def AllReadAlone (ps : List Piece) : Prop := ∀ x ∈ subpiecesOf ps, x.ReadsAlone

theorem allReadAlone_nil : AllReadAlone [] := fun _ hx => nomatch hx

theorem AllReadAlone.append {ps qs : List Piece} (h : AllReadAlone ps) (h' : AllReadAlone qs) :
    AllReadAlone (ps ++ qs) := by
  rw [AllReadAlone, subpiecesOf_append]
  exact List.forall_mem_append.mpr ⟨h, h'⟩

theorem AllReadAlone.cons {p : Piece} {ps : List Piece} (h : AllReadAlone ps)
    (hp : p.ReadsAlone) (hinner : AllReadAlone p.inner) : AllReadAlone (p :: ps) := by
  rw [AllReadAlone, subpiecesOf, subpieces_eq]
  exact List.forall_mem_append.mpr ⟨List.forall_mem_cons.mpr ⟨hp, hinner⟩, h⟩

theorem AllReadAlone.single {p : Piece} (hp : p.ReadsAlone) (hinner : AllReadAlone p.inner) :
    AllReadAlone [p] :=
  allReadAlone_nil.cons hp hinner

theorem readsAlone_namePiece {name : String} (h : IsName name) : (namePiece name).ReadsAlone := by
  refine readsAlone_of_phrase (.name name) rfl trivial ?_ (tokensOf_text (t := .name name) h)
  exact fits_cons.mpr ⟨⟨h, rfl⟩, fun _ ht => nomatch ht⟩

theorem allReadAlone_names {names : List String} (h : ∀ name ∈ names, IsName name) :
    AllReadAlone (names.map namePiece) := by
  induction names with
  | nil => exact allReadAlone_nil
  | cons name names ih =>
      obtain ⟨hname, hmore⟩ := List.forall_mem_cons.mp h
      exact (ih hmore).cons (readsAlone_namePiece hname) allReadAlone_nil

theorem allReadAlone_signs (ops : List UnaryOp) : AllReadAlone (ops.map UnaryOp.piece) := by
  induction ops with
  | nil => exact allReadAlone_nil
  | cons op ops ih => exact ih.cons (readsAlone_of_rule rfl rfl) allReadAlone_nil

end Piece

open Piece

/-- Every piece of a part reads alone. The text of a piece has the tokens of what it stands for, so
it is enough that a phrase is well formed wherever it stands. -/
theorem Tree.allReadAlone {part : Part} {ps : List Piece} (h : Tree part ps)
    (hpart : part.WellFormed) (hfits : Fits part.tokens) : AllReadAlone ps := by
  induction h with
  | name text =>
      have hname := (hfits _ List.mem_cons_self).1
      exact .single (readsAlone_namePiece hname) allReadAlone_nil
  | numeral digits =>
      have hlegible := (hfits _ List.mem_cons_self).1
      exact .single (readsAlone_of_phrase (.numeral digits) rfl hpart hfits
        (tokensOf_text hlegible)) allReadAlone_nil
  | boolean value =>
      have hlegible := (hfits _ List.mem_cons_self).1
      exact .single (readsAlone_of_phrase (.boolean value) rfl hpart hfits
        (tokensOf_text hlegible)) allReadAlone_nil
  | grouped inner ih => exact ih hpart hfits.parenthesized
  | function names htext body ih =>
      obtain ⟨hparams, hbody⟩ := fits_append.mp hfits
      have hnames := allReadAlone_names (fits_cons.mp hparams).2.parenthesized.names
      refine .single (readsAlone_of_phrase (.function names htext body) rfl hpart hfits htext) ?_
      refine .cons (.cons (ih hpart hbody.braced) ?_ hnames) ?_ allReadAlone_nil
      · exact readsAlone_of_rule rfl rfl
      · exact readsAlone_of_rule rfl rfl
  | ifThen htext test yes ihp ihcs =>
      obtain ⟨htest, hyes⟩ := fits_append.mp hfits
      refine .single (readsAlone_of_phrase (.ifThen htext test yes) rfl hpart hfits htext) ?_
      refine .cons ?_ (readsAlone_of_rule rfl rfl) allReadAlone_nil
      exact (ihp hpart.1 (fits_cons.mp htest).2.parenthesized).append (ihcs hpart.2 hyes.braced)
  | ifThenElse htext test yes no ihp ihcs ihds =>
      obtain ⟨hthen, helse⟩ := fits_append.mp hfits
      obtain ⟨htest, hyes⟩ := fits_append.mp hthen
      refine .single (readsAlone_of_phrase (.ifThenElse htext test yes no) rfl hpart hfits htext) ?_
      refine .cons (.append (ihp hpart.1 (fits_cons.mp htest).2.parenthesized) ?_)
        (readsAlone_of_rule rfl rfl) allReadAlone_nil
      refine .append (ihcs hpart.2.1 hyes.braced) (.cons ?_ (readsAlone_of_rule rfl rfl)
        allReadAlone_nil)
      exact ihds hpart.2.2 (fits_cons.mp helse).2.braced
  | callee first ih => exact ih hpart hfits
  | call text callee list ihp ihargs =>
      obtain ⟨hcallee, hargs⟩ := fits_append.mp hfits
      refine (ihp hpart.1 hcallee).append (.single (readsAlone_of_rule rfl rfl) ?_)
      exact ihargs hpart.2.2 hargs.parenthesized
  | called htext calls ih =>
      exact .single (readsAlone_of_phrase (.called htext calls) rfl hpart hfits htext)
        (ih hpart hfits)
  | signed ops htext operand ih =>
      have hinner := hfits
      rw [Part.tokens, Phrase.tokens_signed] at hinner
      have hoperand := ih (Phrase.wellFormed_of_signed hpart) (fits_append.mp hinner).2
      exact .single (readsAlone_of_phrase (.signed ops htext operand) rfl hpart hfits htext)
        ((allReadAlone_signs ops).append hoperand)
  | operand first ih => exact ih hpart hfits
  | @operation p q op ps qs left right ihp ihq =>
      obtain ⟨hleft, hright⟩ := fits_append.mp hfits
      refine (ihp hpart.1 hleft).append (.cons (ihq hpart.2.1 (fits_cons.mp hright).2) ?_
        allReadAlone_nil)
      exact readsAlone_of_rule (by cases op <;> rfl) (by cases op <;> rfl)
  | @level l p text ps htext operands ih =>
      refine .single (readsAlone_of_phrase (.level htext operands) ?_ hpart hfits htext)
        (ih hpart hfits)
      cases l <;> rfl
  | expression htext inner ih =>
      exact .single (readsAlone_of_phrase (.expression htext inner) rfl hpart hfits htext)
        (ih hpart hfits)
  | noItem => exact allReadAlone_nil
  | item first more ihp ihps =>
      obtain ⟨hitem, hmore⟩ := hfits.separated
      exact (ihp hpart.1 hitem).append (ihps hpart.2 hmore)
  | block text body ih =>
      exact .single (readsAlone_of_rule rfl rfl) (ih hpart hfits)
  | binding htext value ih =>
      obtain ⟨-, hname⟩ := fits_cons.mp hfits
      obtain ⟨⟨hname, -⟩, hrest⟩ := fits_cons.mp hname
      have hvalue := ih hpart (fits_append.mp (fits_cons.mp hrest).2).1
      refine .single (readsAlone_of_clause (.binding htext value) rfl hpart hfits htext) ?_
      exact .cons (.cons hvalue (readsAlone_namePiece hname) allReadAlone_nil)
        (readsAlone_of_rule rfl rfl) allReadAlone_nil
  | returning htext value ih =>
      have hvalue := ih hpart (fits_append.mp (fits_cons.mp hfits).2).1
      refine .single (readsAlone_of_clause (.returning htext value) rfl hpart hfits htext) ?_
      exact .cons hvalue (readsAlone_of_rule rfl rfl) allReadAlone_nil
  | evaluation htext value ih =>
      exact .single (readsAlone_of_clause (.evaluation htext value) rfl hpart hfits htext)
        (ih hpart (fits_append.mp hfits).1)
  | noClause => exact allReadAlone_nil
  | clause first more ihc ihcs =>
      obtain ⟨hfirst, hmore⟩ := fits_append.mp hfits
      exact (ihc hpart.1 hfirst).append (ihcs hpart.2.2 hmore)

theorem Piece.isStatement_of_toStatement {x : Piece} {s : Statement}
    (h : x.toStatement.outcome = .ok s) : x.rule.isStatement = true := by
  rw [toStatement] at h
  obtain ⟨-, -, h⟩ := Building.exists_of_bind h
  split at h
  · next hrule => rw [hrule]; rfl
  · next hrule => rw [hrule]; rfl
  · next hrule => rw [hrule]; rfl
  · cases h

theorem Piece.isExpression_of_toExpression {x : Piece} {e : Expression}
    (h : x.toExpression.outcome = .ok e) : x.rule.isExpression = true := by
  rw [toExpression] at h
  obtain ⟨-, -, h⟩ := Building.exists_of_bind h
  split at h
  iterate 12 · next hrule => rw [hrule]; rfl
  · cases h

namespace Program

theorem exists_tree_of_parse {text : String} {p : Program} (h : parse text = .ok p) :
    ∃ cs ps whole ending d, ClausesWellFormed cs ∧ Fits (clauseTokens cs) ∧ Tree (.clauses cs) ps ∧
      (Cursor.start text.toList).program.outcome =
        some ([.mk .program whole (ps ++ [.mk .endOfInput ending []])], d) := by
  obtain ⟨cs, hcs, ht, hfits, -⟩ := parse_eq_ok_iff.mp h
  obtain ⟨ps, whole, ending, d, hread, htree⟩ :=
    Cursor.exists_program hcs (c := .start text.toList) ht
  exact ⟨cs, ps, whole, ending, d, hcs, fits_of_tokensOf ht hfits, htree, hread⟩

theorem readsAlone_of_mem_piecesOf {text : String} {p : Program} (h : parse text = .ok p) :
    ∀ x ∈ piecesOf text, x.ReadsAlone := by
  obtain ⟨cs, ps, whole, ending, d, hcs, hfits, htree, hread⟩ := exists_tree_of_parse h
  have hend : AllReadAlone [.mk .endOfInput ending []] :=
    .single (readsAlone_of_rule rfl rfl) allReadAlone_nil
  have hall : AllReadAlone [.mk .program whole (ps ++ [.mk .endOfInput ending []])] :=
    .single (readsAlone_of_rule rfl rfl) ((htree.allReadAlone hcs hfits).append hend)
  rw [piecesOf, hread]
  exact hall

/-- Every entry of the journal that names a piece names one of the text. -/
theorem exists_mem_piecesOf {text : String} {p : Program} (h : parse text = .ok p) {role : Role}
    {rule : Rule} {span : List Char} (he : .entered role rule span ∈ journal text) :
    ∃ x ∈ piecesOf text, x.rule = rule ∧ x.text = span ∧ role.Builds x := by
  obtain ⟨cs, ps, whole, ending, d, -, -, -, hread⟩ := exists_tree_of_parse h
  rw [piecesOf, hread]
  rw [parse, read, hread] at h
  rw [journal, read, hread] at he
  exact visits_ofPieces _ p h role rule span he

/-- A piece of a text means on its own what is built from it in its place. -/
theorem parse_span (text : String) (p : Program) (h : parse text = .ok p) :
    (∀ rule span, .entered .statement rule span ∈ journal text →
      ∃ x ∈ piecesOf text, x.rule = rule ∧ x.text = span ∧
        ∃ s, x.toStatement.outcome = .ok s ∧ parse (String.ofList span) = .ok ⟨[s]⟩) ∧
    (∀ rule span, .entered .expression rule span ∈ journal text →
      ∃ x ∈ piecesOf text, x.rule = rule ∧ x.text = span ∧
        ∃ e, x.toExpression.outcome = .ok e ∧
          parse (String.ofList span) = .ok ⟨[.expression e]⟩) ∧
    ∀ x ∈ piecesOf text, x.ReadsAlone := by
  have hpieces := readsAlone_of_mem_piecesOf h
  refine ⟨fun rule span he => ?_, fun rule span he => ?_, hpieces⟩
  · obtain ⟨x, hx, rfl, rfl, s, hs⟩ := exists_mem_piecesOf h he
    exact ⟨x, hx, rfl, rfl, (hpieces x hx).1 (isStatement_of_toStatement hs)⟩
  · obtain ⟨x, hx, rfl, rfl, e, he⟩ := exists_mem_piecesOf h he
    exact ⟨x, hx, rfl, rfl, (hpieces x hx).2 (isExpression_of_toExpression he)⟩

theorem parse_span_call :
    parse "let a = -(f (b) * 02) ; // end" =
        .ok ⟨[.binding "a" (.unary .neg (.binary (.call (.name "f") [.name "b"]) .mul
          (.integer 2)))]⟩ ∧
      ∀ x ∈ piecesOf "let a = -(f (b) * 02) ; // end", x.ReadsAlone := by
  have h : parse "let a = -(f (b) * 02) ; // end" =
      .ok ⟨[.binding "a" (.unary .neg (.binary (.call (.name "f") [.name "b"]) .mul
        (.integer 2)))]⟩ := by
    have hcs : ClausesWellFormed [.binding "a" (.unary .neg (.grouped
        (.binary (.call (.name "f") [.name "b"]) .mul (.numeral "02")))) true] := by
      simp [ClausesWellFormed, Clause.WellFormed, Phrase.WellFormed, PhrasesWellFormed,
        Phrase.precedence, Clause.ended, BinaryOp.level, Level.rank]
    rw [parse_eq_inRange hcs (by decide +kernel), inRange_of_none (by decide +kernel)]
    rfl
  exact ⟨h, (parse_span _ _ h).2.2⟩

end Program
end MonkeyLang
