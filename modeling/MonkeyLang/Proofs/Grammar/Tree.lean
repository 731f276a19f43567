import MonkeyLang.Grammar.Phrase
import MonkeyLang.Grammar.Piece
import MonkeyLang.Proofs.Grammar.WellFormed

/-!
Pieces as the trace of a phrase. A phrase fixes the pieces that stand for it up to the layout in
their texts: the text of each of them has the tokens of what it stands for.
-/
namespace MonkeyLang

/-- What pieces can stand for: a phrase that is read at a rank, the operands and the operators of a
level, a callee with its arguments, and so on. -/
inductive Part where
  | phrase (rank : Nat) (p : Phrase)
  | operands (l : Level) (p : Phrase)
  | calls (p : Phrase)
  | items (ps : List Phrase)
  | block (cs : List Clause)
  | clause (c : Clause)
  | clauses (cs : List Clause)

def Keyword.piece (rule : Rule) (k : Keyword) : Piece := .mk rule k.text.toList []

def UnaryOp.piece (op : UnaryOp) : Piece := .mk .unaryOperator op.text.toList []

def BinaryOp.piece (op : BinaryOp) : Piece := .mk op.level.operatorRule op.text.toList []

def namePiece (name : String) : Piece := .mk .identifier name.toList []

inductive Tree : Part → List Piece → Prop
  | name (text : String) : Tree (.phrase 7 (.name text)) [namePiece text]
  | numeral (digits : String) :
      Tree (.phrase 7 (.numeral digits)) [.mk .integer digits.toList []]
  | boolean (value : Bool) :
      Tree (.phrase 7 (.boolean value)) [(Keyword.ofBool value).piece .boolean]
  | grouped {p : Phrase} {ps : List Piece} (inner : Tree (.phrase 0 p) ps) :
      Tree (.phrase 7 (.grouped p)) ps
  | function {params : List String} {cs : List Clause} {text : List Char} {ps : List Piece}
      (names : List Char) (htext : tokensOf text = (Phrase.function params cs).tokens)
      (body : Tree (.block cs) ps) :
      Tree (.phrase 7 (.function params cs))
        [.mk .functionLiteral text (Keyword.fnWord.piece .fnKeyword ::
          .mk .parameters names (params.map namePiece) :: ps)]
  | ifThen {p : Phrase} {cs : List Clause} {text : List Char} {ps qs : List Piece}
      (htext : tokensOf text = (Phrase.conditional p cs none).tokens)
      (test : Tree (.phrase 0 p) ps) (yes : Tree (.block cs) qs) :
      Tree (.phrase 7 (.conditional p cs none))
        [.mk .ifExpression text (Keyword.ifWord.piece .ifKeyword :: (ps ++ qs))]
  | ifThenElse {p : Phrase} {cs ds : List Clause} {text : List Char} {ps qs rs : List Piece}
      (htext : tokensOf text = (Phrase.conditional p cs (some ds)).tokens)
      (test : Tree (.phrase 0 p) ps) (yes : Tree (.block cs) qs) (no : Tree (.block ds) rs) :
      Tree (.phrase 7 (.conditional p cs (some ds)))
        [.mk .ifExpression text (Keyword.ifWord.piece .ifKeyword ::
          (ps ++ (qs ++ Keyword.elseWord.piece .elseKeyword :: rs)))]
  | callee {p : Phrase} {ps : List Piece} (first : Tree (.phrase 7 p) ps) : Tree (.calls p) ps
  | call {p : Phrase} {args : List Phrase} {ps qs : List Piece} (text : List Char)
      (callee : Tree (.calls p) ps) (list : Tree (.items args) qs) :
      Tree (.calls (.call p args)) (ps ++ [.mk .arguments text qs])
  | called {p : Phrase} {text : List Char} {ps : List Piece} (htext : tokensOf text = p.tokens)
      (calls : Tree (.calls p) ps) : Tree (.phrase 6 p) [.mk .call text ps]
  | signed {p : Phrase} (ops : List UnaryOp) {text : List Char} {ps : List Piece}
      (htext : tokensOf text = (p.signed ops).tokens) (operand : Tree (.phrase 6 p) ps) :
      Tree (.phrase 5 (p.signed ops)) [.mk .unary text (ops.map UnaryOp.piece ++ ps)]
  | operand {l : Level} {p : Phrase} {ps : List Piece} (first : Tree (.phrase (l.rank + 1) p) ps) :
      Tree (.operands l p) ps
  | operation {p q : Phrase} {op : BinaryOp} {ps qs : List Piece}
      (left : Tree (.operands op.level p) ps) (right : Tree (.phrase (op.level.rank + 1) q) qs) :
      Tree (.operands op.level (.binary p op q)) (ps ++ op.piece :: qs)
  | level {l : Level} {p : Phrase} {text : List Char} {ps : List Piece}
      (htext : tokensOf text = p.tokens) (operands : Tree (.operands l p) ps) :
      Tree (.phrase l.rank p) [.mk l.rule text ps]
  | expression {p : Phrase} {text : List Char} {ps : List Piece}
      (htext : tokensOf text = p.tokens) (inner : Tree (.phrase 1 p) ps) :
      Tree (.phrase 0 p) [.mk .expression text ps]
  | noItem : Tree (.items []) []
  | item {p : Phrase} {ps : List Phrase} {qs rs : List Piece} (first : Tree (.phrase 0 p) qs)
      (more : Tree (.items ps) rs) : Tree (.items (p :: ps)) (qs ++ rs)
  | block {cs : List Clause} {ps : List Piece} (text : List Char) (body : Tree (.clauses cs) ps) :
      Tree (.block cs) [.mk .block text ps]
  | binding {name : String} {p : Phrase} {ended : Bool} {text : List Char} {ps : List Piece}
      (htext : tokensOf text = (Clause.binding name p ended).tokens)
      (value : Tree (.phrase 0 p) ps) :
      Tree (.clause (.binding name p ended))
        [.mk .letStatement text (Keyword.letWord.piece .letKeyword :: namePiece name :: ps)]
  | returning {p : Phrase} {ended : Bool} {text : List Char} {ps : List Piece}
      (htext : tokensOf text = (Clause.returning p ended).tokens)
      (value : Tree (.phrase 0 p) ps) :
      Tree (.clause (.returning p ended))
        [.mk .returnStatement text (Keyword.returnWord.piece .returnKeyword :: ps)]
  | evaluation {p : Phrase} {ended : Bool} {text : List Char} {ps : List Piece}
      (htext : tokensOf text = (Clause.expression p ended).tokens)
      (value : Tree (.phrase 0 p) ps) :
      Tree (.clause (.expression p ended)) [.mk .expressionStatement text ps]
  | noClause : Tree (.clauses []) []
  | clause {c : Clause} {cs : List Clause} {ps qs : List Piece} (first : Tree (.clause c) ps)
      (more : Tree (.clauses cs) qs) : Tree (.clauses (c :: cs)) (ps ++ qs)

end MonkeyLang
