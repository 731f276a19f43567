import MonkeyLang.Grammar.Phrase

/-!
Brackets. Whatever is written closes the parentheses and braces that it opens. This is one of the
properties that pass from the parts of a phrase to the whole, and so it is enough to know what a
token, a pair of brackets and an `if` contribute.
-/
namespace MonkeyLang

/-- The bracket that closes what the token opens. -/
def Token.closer? : Token → Option Char
  | symbol '(' => some ')'
  | symbol '\x7b' => some '\x7d'
  | _ => none

def Token.isCloser (t : Token) : Bool := t = symbol ')' || t = symbol '\x7d'

/-- Whether brackets are properly nested, with these closing brackets still to come. -/
def nestedFrom (closers : List Char) : List Token → Bool
  | [] => closers.isEmpty
  | t :: ts =>
    match t.closer?, closers with
    | some closer, _ => nestedFrom (closer :: closers) ts
    | none, [] => !t.isCloser && nestedFrom [] ts
    | none, closer :: outer =>
        if t.isCloser then t = .symbol closer && nestedFrom outer ts
        else nestedFrom (closer :: outer) ts

/-- The tokens close what they open and nothing else. -/
def Balanced (ts : List Token) : Prop :=
  ∀ closers us, nestedFrom closers (ts ++ us) = nestedFrom closers us

def Token.isBracket (t : Token) : Bool := t.closer?.isSome || t.isCloser

theorem nestedFrom_cons {t : Token} (h : t.isBracket = false) (closers : List Char)
    (ts : List Token) : nestedFrom closers (t :: ts) = nestedFrom closers ts := by
  obtain ⟨hopen, hclose⟩ := Bool.or_eq_false_iff.mp h
  rw [Option.isSome_eq_false_iff, Option.isNone_iff_eq_none] at hopen
  cases closers <;> simp [nestedFrom, hopen, hclose]

theorem nestedFrom_opener {t : Token} {closer : Char} (h : t.closer? = some closer)
    (closers : List Char) (ts : List Token) :
    nestedFrom closers (t :: ts) = nestedFrom (closer :: closers) ts := by
  simp [nestedFrom, h]

/-- A property of tokens that passes from the parts of what is written to the whole. -/
structure Compositional (P : List Token → Prop) : Prop where
  nil : P []
  append {ts us : List Token} : P ts → P us → P (ts ++ us)
  token {t : Token} : t.isBracket = false → t ≠ .keyword .ifWord → P [t]
  parenthesized {ts : List Token} : P ts → P (parenthesized ts)
  braced {ts : List Token} : P ts → P (braced ts)
  ifThen {ts us : List Token} : P ts → P us →
    P (.keyword .ifWord :: MonkeyLang.parenthesized ts ++ MonkeyLang.braced us)

namespace Compositional

variable {P : List Token → Prop}

theorem cons (h : Compositional P) {t : Token} {ts : List Token} (ht : t.isBracket = false)
    (hif : t ≠ .keyword .ifWord) (hts : P ts) : P (t :: ts) :=
  h.append (h.token ht hif) hts

theorem unary (h : Compositional P) (op : UnaryOp) {ts : List Token} (hts : P ts) :
    P (op.token :: ts) :=
  h.cons (by cases op <;> decide) (by cases op <;> decide) hts

theorem binary (h : Compositional P) (op : BinaryOp) {ts : List Token} (hts : P ts) :
    P (op.token :: ts) :=
  h.cons (by cases op <;> decide) (by cases op <;> decide) hts

theorem ending (h : Compositional P) (ended : Bool) : P (ending ended) := by
  cases ended with
  | true => exact h.token (by decide) (by decide)
  | false => exact h.nil

theorem separated (h : Compositional P) {items : List (List Token)}
    (hitems : ∀ item ∈ items, P item) : P (separated items) := by
  induction items with
  | nil => exact h.nil
  | cons item items ih =>
      obtain ⟨hitem, hmore⟩ := List.forall_mem_cons.mp hitems
      cases items with
      | nil => exact hitem
      | cons next items => exact h.append hitem (h.cons (by decide) (by decide) (ih hmore))

theorem names (h : Compositional P) (names : List String) :
    P (MonkeyLang.separated (names.map ([.name ·]))) := by
  refine h.separated fun item hitem => ?_
  obtain ⟨name, -, rfl⟩ := List.mem_map.mp hitem
  exact h.token rfl nofun

mutual

theorem phrase (h : Compositional P) : (p : Phrase) → P p.tokens
  | .name _ | .numeral _ => h.token rfl nofun
  | .boolean value => h.token rfl (by cases value <;> decide)
  | .grouped inner => h.parenthesized (h.phrase inner)
  | .unary op operand => h.unary op (h.phrase operand)
  | .binary left op right => h.append (h.phrase left) (h.binary op (h.phrase right))
  | .conditional test yes none => h.ifThen (h.phrase test) (h.clauses yes)
  | .conditional test yes (some no) =>
      h.append (h.ifThen (h.phrase test) (h.clauses yes))
        (h.cons rfl (by decide) (h.braced (h.clauses no)))
  | .function params body =>
      h.append (h.cons rfl (by decide) (h.parenthesized (h.names params)))
        (h.braced (h.clauses body))
  | .call callee args =>
      h.append (h.phrase callee) (h.parenthesized (h.separated (h.phrases args)))

theorem clause (h : Compositional P) : (c : Clause) → P c.tokens
  | .binding _ value ended =>
      h.append (h.cons rfl (by decide) (h.cons rfl nofun (h.cons (by decide) (by decide)
        (h.phrase value)))) (h.ending ended)
  | .returning value ended =>
      h.append (h.cons rfl (by decide) (h.phrase value)) (h.ending ended)
  | .expression value ended => h.append (h.phrase value) (h.ending ended)

theorem clauses (h : Compositional P) : (cs : List Clause) → P (clauseTokens cs)
  | [] => h.nil
  | c :: cs => h.append (h.clause c) (h.clauses cs)

theorem phrases (h : Compositional P) : (ps : List Phrase) → ∀ item ∈ phraseTokens ps, P item
  | [] => fun _ hitem => nomatch hitem
  | p :: ps => List.forall_mem_cons.mpr ⟨h.phrase p, h.phrases ps⟩

end

end Compositional

theorem balanced_nil : Balanced [] := fun _ _ => rfl

theorem balanced_token {t : Token} (ht : t.isBracket = false) : Balanced [t] :=
  fun closers us => nestedFrom_cons ht closers us

theorem Balanced.append {ts us : List Token} (h : Balanced ts) (h' : Balanced us) :
    Balanced (ts ++ us) := by
  intro closers vs
  rw [List.append_assoc, h, h']

theorem Balanced.parenthesized {ts : List Token} (h : Balanced ts) :
    Balanced (parenthesized ts) := by
  intro closers us
  rw [MonkeyLang.parenthesized, List.append_assoc, List.cons_append,
    nestedFrom_opener rfl, h]
  rfl

theorem Balanced.braced {ts : List Token} (h : Balanced ts) : Balanced (braced ts) := by
  intro closers us
  rw [MonkeyLang.braced, List.append_assoc, List.cons_append,
    nestedFrom_opener rfl, h]
  rfl

theorem compositional_balanced : Compositional Balanced where
  nil := balanced_nil
  append := .append
  token ht _ := balanced_token ht
  parenthesized := .parenthesized
  braced := .braced
  ifThen h h' :=
    have hif : Balanced [.keyword .ifWord] := balanced_token rfl
    (hif.append h.parenthesized).append h'.braced

theorem balanced_clauseTokens (cs : List Clause) : Balanced (clauseTokens cs) :=
  compositional_balanced.clauses cs

end MonkeyLang
