import MonkeyLang.Grammar.Cursor
import MonkeyLang.Grammar.Expectation
import MonkeyLang.Grammar.Piece

/-!
Reading a text from a cursor. A reading either finds pieces and stops at a later cursor, or fails;
in both cases it tells what was expected at the furthest place where a rule failed. Every cursor
that a reading stops at has less left than a limit, which is why reading comes to an end. The
outcome of a reading is what it finds; it never depends on what was expected.
-/
namespace MonkeyLang

structure Finding (limit : Nat) where
  pieces : List Piece
  next : Cursor
  size_lt : next.size < limit

structure Reading (limit : Nat) where
  found? : Option (Finding limit)
  expected : Expectation

namespace Reading

variable {m n : Nat}

@[inline] def failure : Reading n := ⟨none, .empty⟩

/-- Reads up to a cursor without finding a piece. -/
@[inline] def passed (c : Cursor) (h : c.size < n) : Reading n := ⟨some ⟨[], c, h⟩, .empty⟩

@[inline] def widen (h : m ≤ n) (r : Reading m) : Reading n :=
  ⟨r.found?.map fun x => ⟨x.pieces, x.next, Nat.lt_of_lt_of_le x.size_lt h⟩, r.expected⟩

/-- Goes on right where the first reading stops. -/
@[inline] def andMore (r : Reading m) (f : (c : Cursor) → c.size < m → Reading n) : Reading n :=
  match r.found? with
  | none => ⟨none, r.expected⟩
  | some x =>
    let s := f x.next x.size_lt
    ⟨s.found?.map fun y => ⟨x.pieces ++ y.pieces, y.next, y.size_lt⟩,
      r.expected.merge s.expected⟩

/-- Goes on behind the layout after the first reading. -/
@[inline] def andThen (r : Reading m) (f : (c : Cursor) → c.size < m → Reading n) : Reading n :=
  r.andMore fun c h => f c.skip (Nat.lt_of_le_of_lt c.size_skip_le h)

/-- The second reading is tried where the first one fails. -/
@[inline] def orElse (r : Reading n) (s : Unit → Reading n) : Reading n :=
  match r.found? with
  | some x => ⟨some x, r.expected⟩
  | none =>
    let t := s ()
    ⟨t.found?, r.expected.merge t.expected⟩

/-- Stays at `c` where the reading fails. -/
@[inline] def orStay (c : Cursor) (r : Reading (c.size + 1)) : Reading (c.size + 1) :=
  r.orElse fun _ => passed c c.size_lt_succ

/-- Tries a reading behind the layout after `c`. Where it fails, the layout is not passed. -/
@[inline] def again (c : Cursor) (f : (d : Cursor) → d.size ≤ c.size → Reading (c.size + 1)) :
    Reading (c.size + 1) :=
  orStay c (f c.skip c.size_skip_le)

/-- A reading counts only if no character of a class comes next. -/
@[inline] def unlessBefore (p : Char → Bool) (r : Reading n) : Reading n :=
  match r.found? with
  | some x => if x.next.rest.head?.any p then failure else r
  | none => r

/-- A reading at `c` that a rule of the grammar stands for. What it finds is one piece. -/
@[inline] def named (rule : Rule) (c : Cursor) (r : Reading n) : Reading n :=
  match r.found? with
  | some x => ⟨some ⟨[.mk rule (c.upTo x.next) x.pieces], x.next, x.size_lt⟩, r.expected⟩
  | none => ⟨none, r.expected.failed rule c.offset⟩

/-- What a reading finds and the cursor it stops at. -/
def outcome (r : Reading n) : Option (List Piece × Cursor) :=
  r.found?.map fun x => (x.pieces, x.next)

theorem outcome_failure : (failure : Reading n).outcome = none := rfl

theorem outcome_passed (c : Cursor) (h : c.size < n) : (passed c h).outcome = some ([], c) := rfl

theorem outcome_widen (h : m ≤ n) (r : Reading m) : (r.widen h).outcome = r.outcome := by
  unfold widen outcome
  cases r.found? <;> rfl

theorem size_lt_of_outcome {r : Reading n} {ps : List Piece} {c : Cursor}
    (h : r.outcome = some (ps, c)) : c.size < n := by
  obtain ⟨x, -, hx⟩ := Option.map_eq_some_iff.mp h
  cases hx
  exact x.size_lt

theorem outcome_named (rule : Rule) (c : Cursor) (r : Reading n) :
    (named rule c r).outcome =
      r.outcome.map fun x => ([.mk rule (c.upTo x.2) x.1], x.2) := by
  unfold named outcome
  cases h : r.found? <;> simp

theorem outcome_named_eq_some {rule : Rule} {c d : Cursor} {r : Reading n} {ps : List Piece} :
    (named rule c r).outcome = some (ps, d) ↔
      ∃ qs, r.outcome = some (qs, d) ∧ ps = [.mk rule (c.upTo d) qs] := by
  rw [outcome_named, Option.map_eq_some_iff]
  constructor
  · rintro ⟨x, hx, heq⟩
    cases heq
    exact ⟨x.1, hx, rfl⟩
  · rintro ⟨qs, hq, rfl⟩
    exact ⟨_, hq, rfl⟩

theorem outcome_orElse (r : Reading n) (s : Unit → Reading n) :
    (r.orElse s).outcome = r.outcome.or (s ()).outcome := by
  unfold orElse outcome
  cases h : r.found? <;> simp

theorem outcome_orStay (c : Cursor) (r : Reading (c.size + 1)) :
    (r.orStay c).outcome = some (r.outcome.getD ([], c)) := by
  rw [orStay, outcome_orElse, outcome_passed]
  cases r.outcome <;> rfl

theorem outcome_orStay_eq_some {c d : Cursor} {r : Reading (c.size + 1)} {ps : List Piece} :
    (r.orStay c).outcome = some (ps, d) ↔
      r.outcome = some (ps, d) ∨ r.outcome = none ∧ ps = [] ∧ d = c := by
  rw [outcome_orStay]
  cases r.outcome <;> simp [eq_comm]

theorem outcome_again_eq_some {c e : Cursor}
    {f : (d : Cursor) → d.size ≤ c.size → Reading (c.size + 1)} {ps : List Piece} :
    (again c f).outcome = some (ps, e) ↔
      (f c.skip c.size_skip_le).outcome = some (ps, e) ∨
        (f c.skip c.size_skip_le).outcome = none ∧ ps = [] ∧ e = c :=
  outcome_orStay_eq_some

theorem outcome_unlessBefore (p : Char → Bool) (r : Reading n) :
    (r.unlessBefore p).outcome = r.outcome.filter fun x => !x.2.rest.head?.any p := by
  unfold unlessBefore outcome
  cases h : r.found? with
  | none => simp [h]
  | some x => by_cases hp : x.next.rest.head?.any p <;> simp [h, hp, failure, Option.filter_some]

section Sequence

variable {r : Reading m} {f : (c : Cursor) → c.size < m → Reading n} {ps : List Piece} {e : Cursor}

theorem outcome_andMore_of_none (h : r.outcome = none) : (r.andMore f).outcome = none := by
  unfold andMore
  cases hr : r.found? with
  | none => rfl
  | some x => simp [outcome, hr] at h

theorem outcome_andMore_eq_some :
    (r.andMore f).outcome = some (ps, e) ↔
      ∃ qs c, ∃ h : r.outcome = some (qs, c),
        ∃ rs, (f c (size_lt_of_outcome h)).outcome = some (rs, e) ∧ ps = qs ++ rs := by
  cases hr : r.found? with
  | none =>
      have hnone : r.outcome = none := by simp [outcome, hr]
      simp [outcome_andMore_of_none hnone, hnone]
  | some x =>
      have hsome : r.outcome = some (x.pieces, x.next) := by simp [outcome, hr]
      have hmore : (r.andMore f).outcome =
          (f x.next x.size_lt).outcome.map fun y => (x.pieces ++ y.1, y.2) := by
        unfold andMore outcome
        rw [hr, Option.map_map, Option.map_map]
        rfl
      rw [hmore, Option.map_eq_some_iff]
      constructor
      · rintro ⟨y, hy, heq⟩
        cases heq
        exact ⟨x.pieces, x.next, hsome, y.1, hy, rfl⟩
      · rintro ⟨qs, c, h, rs, hy, rfl⟩
        cases hsome.symm.trans h
        exact ⟨(rs, e), hy, rfl⟩

theorem outcome_andMore_eq_none :
    (r.andMore f).outcome = none ↔
      ∀ qs c, ∀ h : r.outcome = some (qs, c), (f c (size_lt_of_outcome h)).outcome = none := by
  constructor
  · intro hnone qs c h
    cases hf : (f c (size_lt_of_outcome h)).outcome with
    | none => rfl
    | some x =>
        have hsome := outcome_andMore_eq_some.mpr ⟨qs, c, h, x.1, hf, rfl⟩
        rw [hnone] at hsome
        cases hsome
  · intro h
    rw [Option.eq_none_iff_forall_ne_some]
    rintro ⟨ps, e⟩ hsome
    obtain ⟨qs, c, hr, rs, hf, -⟩ := outcome_andMore_eq_some.mp hsome
    rw [h qs c hr] at hf
    cases hf

theorem outcome_andThen_of_none (h : r.outcome = none) : (r.andThen f).outcome = none :=
  outcome_andMore_of_none h

theorem size_skip_lt_of_outcome {c : Cursor} (h : r.outcome = some (ps, c)) : c.skip.size < m :=
  Nat.lt_of_le_of_lt c.size_skip_le (size_lt_of_outcome h)

theorem outcome_andThen_eq_some :
    (r.andThen f).outcome = some (ps, e) ↔
      ∃ qs c, ∃ h : r.outcome = some (qs, c),
        ∃ rs, (f c.skip (size_skip_lt_of_outcome h)).outcome = some (rs, e) ∧ ps = qs ++ rs :=
  outcome_andMore_eq_some

theorem outcome_andThen_eq_none :
    (r.andThen f).outcome = none ↔
      ∀ qs c, ∀ h : r.outcome = some (qs, c),
        (f c.skip (size_skip_lt_of_outcome h)).outcome = none :=
  outcome_andMore_eq_none

end Sequence

end Reading

namespace Cursor

/-- Reads a text that is not empty. -/
def literal (text : String) (c : Cursor) : Reading c.size :=
  if h : 0 < text.toList.length ∧ text.toList <+: c.rest then
    .passed (c.advance text.toList.length)
      (size_advance_lt h.1 (Nat.lt_of_lt_of_le h.1 h.2.length_le))
  else
    .failure

/-- Reads the first of some texts that comes next. -/
def oneOf (c : Cursor) : List String → Reading c.size
  | [] => .failure
  | text :: texts => (c.literal text).orElse fun _ => c.oneOf texts

/-- Reads a character of one class and the characters of another class after it. -/
def run (first more : Char → Bool) (c : Cursor) : Reading c.size :=
  match h : c.rest with
  | [] => .failure
  | d :: ds =>
    if first d then
      .passed (c.advance (1 + (ds.takeWhile more).length))
        (size_advance_lt (by omega) (by simp [size, h]))
    else
      .failure

end Cursor
end MonkeyLang
