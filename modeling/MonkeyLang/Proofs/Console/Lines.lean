import MonkeyLang.Console.Run

/-!
The lines of the standard input are answered one by one. An answer depends on its line alone, and a
program that cannot be read or evaluated is answered like any other, so an input can be cut behind
each line feed. Only a line that is no text ends the conversation, and nothing behind it is read.
-/
namespace MonkeyLang
namespace Console

/-- The input stops behind a line feed, if it holds anything. -/
def EndsLine (input : Bytes) : Prop := input = [] ∨ input.getLast? = some 10

/-- The prompts and the answers to those lines that are texts. -/
def answers (mode : Mode) (ls : List Bytes) : String :=
  String.join ((ls.filterMap Bytes.text?).map fun text => prompt ++ reply mode text)

theorem EndsLine.tail {byte : UInt8} {rest : Bytes} (h : EndsLine (byte :: rest)) :
    EndsLine rest ∧ (rest = [] → byte = 10) := by
  obtain h | h := h
  · cases h
  cases rest with
  | nil =>
      rw [List.getLast?_singleton, Option.some.injEq] at h
      exact ⟨.inl rfl, fun _ => h⟩
  | cons next rest =>
      rw [List.getLast?_cons_cons] at h
      exact ⟨.inr h, nofun⟩

theorem lines_ne_nil {input : Bytes} (h : input ≠ []) : lines input ≠ [] := by
  fun_cases lines input with
  | case1 => exact absurd rfl h
  | case2 | case3 | case4 | case5 => simp_all

/-- A byte that ends no line stands at the head of the first line. -/
theorem lines_cons {byte : UInt8} {rest : Bytes} (hfeed : byte ≠ 10)
    (hreturn : ∀ more, byte = 13 → rest ≠ 10 :: more) :
    lines (byte :: rest) = match lines rest with
      | [] => [[byte]]
      | line :: more => (byte :: line) :: more :=
  lines.eq_4 byte rest hfeed hreturn

theorem lines_append {a : Bytes} (h : EndsLine a) (b : Bytes) :
    lines (a ++ b) = lines a ++ lines b := by
  fun_induction lines a with
  | case1 => rfl
  | case2 rest ih =>
      rw [List.cons_append, lines, ih h.tail.1, List.cons_append]
  | case3 rest ih =>
      rw [List.cons_append, List.cons_append, lines, ih h.tail.1.tail.1, List.cons_append]
  | case4 byte rest hfeed hreturn hrest ih =>
      -- Something stands behind the byte, because it is no line feed.
      exact absurd hrest (lines_ne_nil fun hnil => hfeed (h.tail.2 hnil))
  | case5 byte rest hfeed hreturn line more hrest ih =>
      have hne : rest ≠ [] := fun hnil => hfeed (h.tail.2 hnil)
      obtain ⟨next, rest', rfl⟩ := List.exists_cons_of_ne_nil hne
      have hboth : ∀ ds, byte = 13 → next :: rest' ++ b ≠ 10 :: ds := by
        rintro ds hbyte heq
        obtain ⟨rfl, -⟩ := List.cons.inj heq
        exact hreturn rest' hbyte rfl
      rw [List.cons_append, lines_cons hfeed hboth, ih h.tail.1, hrest]
      rfl

theorem answers_cons {line : Bytes} {text : String} (mode : Mode) (h : line.text? = some text)
    (ls : List Bytes) : answers mode (line :: ls) = prompt ++ reply mode text ++ answers mode ls := by
  rw [answers, List.filterMap_cons_some h, List.map_cons, String.join_cons]
  rfl

theorem converse_nil (mode : Mode) : converse mode [] = ⟨0, prompt ++ "\n", ""⟩ := rfl

theorem converse_cons_text {line : Bytes} {text : String} (mode : Mode)
    (h : line.text? = some text) (more : List Bytes) :
    converse mode (line :: more) =
      ⟨(converse mode more).exit, prompt ++ reply mode text ++ (converse mode more).stdout,
        (converse mode more).stderr⟩ := by
  rw [converse, Bytes.decode, h]
  rfl

theorem converse_cons_unreadable {line : Bytes} (mode : Mode) (h : line.text? = none)
    (more : List Bytes) : converse mode (line :: more) = ⟨1, prompt, unreadable⟩ := by
  rw [converse, Bytes.decode, h, turn, Turn.output, String.append_empty]
  rfl

/-- Behind lines that are texts the conversation goes on as if it began there. -/
theorem converse_append (mode : Mode) {before : List Bytes} (h : ∀ line ∈ before, line.text?.isSome)
    (after : List Bytes) :
    converse mode (before ++ after) =
      ⟨(converse mode after).exit, answers mode before ++ (converse mode after).stdout,
        (converse mode after).stderr⟩ := by
  induction before with
  | nil =>
      change _ = Output.mk _ ("" ++ _) _
      rw [String.empty_append]
      rfl
  | cons line before ih =>
      obtain ⟨hline, hbefore⟩ := List.forall_mem_cons.mp h
      obtain ⟨text, htext⟩ := Option.isSome_iff_exists.mp hline
      rw [List.cons_append, converse_cons_text mode htext, answers_cons mode htext, ih hbefore]
      exact congrArg (Output.mk _ · _) String.append_assoc.symm

theorem converse_texts (mode : Mode) {ls : List Bytes} (h : ∀ line ∈ ls, line.text?.isSome) :
    converse mode ls = ⟨0, answers mode ls ++ (prompt ++ "\n"), ""⟩ := by
  have hall := converse_append mode h []
  rwa [List.append_nil, converse_nil] at hall

theorem converse_unreadable (mode : Mode) {before : List Bytes}
    (h : ∀ line ∈ before, line.text?.isSome) {line : Bytes} (hline : line.text? = none)
    (after : List Bytes) :
    converse mode (before ++ line :: after) = ⟨1, answers mode before ++ prompt, unreadable⟩ := by
  rw [converse_append mode h, converse_cons_unreadable mode hline]

/-- Some lines are texts, and then comes one that is not, if there is any. -/
theorem texts_or_unreadable (ls : List Bytes) :
    (∀ line ∈ ls, line.text?.isSome) ∨ ∃ before line after, ls = before ++ line :: after ∧
      (∀ l ∈ before, l.text?.isSome) ∧ line.text? = none := by
  cases hfind : ls.find? (·.text?.isNone) with
  | none =>
      rw [List.find?_eq_none] at hfind
      exact .inl fun line hline => by simpa [Option.isSome_iff_ne_none] using hfind line hline
  | some line =>
      obtain ⟨hline, before, after, heq, hbefore⟩ := List.find?_eq_some_iff_append.mp hfind
      refine .inr ⟨before, line, after, heq, fun l hl => ?_, by simpa using hline⟩
      simpa [Option.isSome_iff_ne_none] using hbefore l hl

theorem unreadable_ne_empty : unreadable ≠ "" := by
  unfold unreadable inputFailure
  simp

theorem converse_fails_iff (mode : Mode) (ls : List Bytes) :
    (converse mode ls).exit = 1 ∧ (converse mode ls).stderr ≠ "" ↔
      ∃ line ∈ ls, line.text? = none := by
  obtain h | ⟨before, line, after, rfl, hbefore, hline⟩ := texts_or_unreadable ls
  · rw [converse_texts mode h]
    simp only [Nat.zero_ne_one, false_and, false_iff, not_exists, not_and]
    intro line hmem hnone
    have hsome := h line hmem
    rw [hnone] at hsome
    cases hsome
  · rw [converse_unreadable mode hbefore hline]
    exact iff_of_true ⟨rfl, unreadable_ne_empty⟩ ⟨line, by simp, hline⟩

/-- The lines of an input are answered one by one, up to the first one that is no text. -/
theorem answers_line_by_line (mode : Mode) (files : String → Entity) :
    let out := fun input => perform files input (.run mode none)
    (∀ a b, EndsLine a → (∀ line ∈ lines a, line.text?.isSome) →
      ∃ said, (out a).stdout = said ++ ">> \n" ∧ (out (a ++ b)).stdout = said ++ (out b).stdout ∧
        (out (a ++ b)).stderr = (out b).stderr ∧ (out (a ++ b)).exit = (out b).exit) ∧
    (∀ input, (out input).exit = 1 ∧ (out input).stderr ≠ "" ↔
      ∃ line ∈ lines input, line.text? = none) ∧
    (∀ input before line after, lines input = before ++ line :: after →
      (∀ l ∈ before, l.text?.isSome) → line.text? = none →
      out input = ⟨1, answers mode before ++ prompt, unreadable⟩) ∧
    (∀ input, (∀ line ∈ lines input, line.text?.isSome) →
      out input = ⟨0, answers mode (lines input) ++ ">> \n", ""⟩) := by
  refine ⟨fun a b ha htexts => ⟨answers mode (lines a), ?_⟩, fun input => ?_, ?_, ?_⟩
  · have hboth : converse mode (lines (a ++ b)) = ⟨(converse mode (lines b)).exit,
        answers mode (lines a) ++ (converse mode (lines b)).stdout,
        (converse mode (lines b)).stderr⟩ := by
      rw [lines_append ha, converse_append mode htexts]
    refine ⟨congrArg Output.stdout (converse_texts mode htexts), ?_, ?_, ?_⟩
    · exact (congrArg Output.stdout hboth :)
    · exact (congrArg Output.stderr hboth :)
    · exact (congrArg Output.exit hboth :)
  · exact converse_fails_iff mode (lines input)
  · intro input before line after hlines hbefore hline
    change converse mode (lines input) = _
    rw [hlines, converse_unreadable mode hbefore hline]
  · intro input htexts
    exact converse_texts mode htexts

/-- The bytes are those of `5` with a line feed, and then one that begins no character. -/
theorem answers_line_by_line_unreadable :
    EndsLine [53, 10] ∧ (∀ line ∈ lines [53, 10], line.text?.isSome) ∧
      ∃ said, (perform (fun _ => .missing) [53, 10] (.run .strict none)).stdout = said ++ ">> \n" ∧
        (perform (fun _ => .missing) [53, 10, 255] (.run .strict none)).stdout = said ++ ">> " ∧
        (perform (fun _ => .missing) [53, 10, 255] (.run .strict none)).exit = 1 := by
  have hends : EndsLine [53, 10] := .inr rfl
  have htexts : ∀ line ∈ lines [53, 10], line.text?.isSome := by decide +kernel
  have hfirst : lines [255] = [] ++ [255] :: [] := by decide
  have hunreadable : Bytes.text? [255] = none := by decide +kernel
  obtain ⟨hcut, -, hlast, -⟩ := answers_line_by_line .strict fun _ => .missing
  obtain ⟨said, hsaid, hstdout, -, hexit⟩ := hcut [53, 10] [255] hends htexts
  have hb := hlast [255] [] [255] [] hfirst nofun hunreadable
  refine ⟨hends, htexts, said, hsaid, ?_, ?_⟩
  · exact hstdout.trans (by rw [hb]; rfl)
  · exact hexit.trans (by rw [hb])

end Console
end MonkeyLang
