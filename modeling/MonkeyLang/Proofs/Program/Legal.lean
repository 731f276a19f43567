import MonkeyLang.Program.Basic
import MonkeyLang.Proofs.Lexing.Writing

/-!
Programs that some text denotes: their names are words that are no keywords, and their integers are
not negative, since a sign is an operator.
-/
namespace MonkeyLang

mutual

def Expression.Legal : Expression → Prop
  | .name text => IsName text
  | .integer value => 0 ≤ value.toInt
  | .boolean _ => True
  | .unary _ operand => operand.Legal
  | .binary left _ right => left.Legal ∧ right.Legal
  | .conditional test yes none => test.Legal ∧ StatementsLegal yes
  | .conditional test yes (some no) => test.Legal ∧ StatementsLegal yes ∧ StatementsLegal no
  | .function params body => (∀ param ∈ params, IsName param) ∧ StatementsLegal body
  | .call callee args => callee.Legal ∧ ExpressionsLegal args

def Statement.Legal : Statement → Prop
  | .binding name value => IsName name ∧ value.Legal
  | .returning value | .expression value => value.Legal

def StatementsLegal : List Statement → Prop
  | [] => True
  | s :: ss => s.Legal ∧ StatementsLegal ss

def ExpressionsLegal : List Expression → Prop
  | [] => True
  | e :: es => e.Legal ∧ ExpressionsLegal es

end

def Program.Legal (p : Program) : Prop := StatementsLegal p.statements

theorem StatementsLegal.of_mem {s : Statement} : {ss : List Statement} → StatementsLegal ss →
    s ∈ ss → s.Legal
  | _ :: _, h, hmem => by
      obtain rfl | hmem := List.mem_cons.mp hmem
      · exact h.1
      · exact h.2.of_mem hmem

end MonkeyLang
