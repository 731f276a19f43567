import MonkeyLang.Proofs.Console.Lines
import MonkeyLang.Proofs.Evaluation.Modes
import MonkeyLang.Proofs.Parse.Legality
import MonkeyLang.Proofs.Parse.Rendering

/-!
A text of one line, in a file and on the standard input. Both ways hand the same characters to the
reader, and they answer alike: what the run of a file writes, to whichever stream, is what stands
between the two prompts of a conversation.
-/
namespace MonkeyLang

/-- In UTF-8, the byte of a line feed is no part of another character. -/
theorem eq_newline_of_mem_encoded {c : Char} (h : 10 ∈ String.utf8EncodeChar c) : c = '\n' := by
  have hbyte (n : Nat) (hn : 10 = UInt8.ofNat n) : n % 256 = 10 := by
    simpa using (congrArg UInt8.toNat hn).symm
  unfold String.utf8EncodeChar at h
  dsimp only at h
  split at h
  · have hcode := hbyte _ (List.mem_singleton.mp h)
    apply Char.ext
    apply UInt32.toNat_inj.mp
    change c.val.toNat = 10
    omega
  · -- All bytes of a longer code are above 127.
    split at h
    · simp only [List.mem_cons, List.not_mem_nil, or_false] at h
      rcases h with h | h <;> exact absurd (hbyte _ h) (by omega)
    · split at h
      · simp only [List.mem_cons, List.not_mem_nil, or_false] at h
        rcases h with h | h | h <;> exact absurd (hbyte _ h) (by omega)
      · simp only [List.mem_cons, List.not_mem_nil, or_false] at h
        rcases h with h | h | h | h <;> exact absurd (hbyte _ h) (by omega)

variable {content : Bytes} {text : String}

theorem Bytes.eq_encoded_of_text? (h : content.text? = some text) :
    content = text.toList.flatMap String.utf8EncodeChar := by
  unfold text? String.fromUTF8? at h
  split at h
  · next hvalid =>
      obtain rfl := Option.some.inj h
      have hbytes := congrArg (·.data.toList) (String.utf8Encode_toList (b := .fromUTF8 _ hvalid))
      rw [List.utf8Encode, List.toList_data_toByteArray] at hbytes
      exact hbytes.symm
  · cases h

theorem Bytes.ne_nil_of_text? (h : content.text? = some text) (hne : text ≠ "") : content ≠ [] := by
  rintro rfl
  have hnone := (eq_encoded_of_text? h).symm
  rw [List.flatMap_eq_nil_iff] at hnone
  refine hne (String.toList_eq_nil_iff.mp (List.eq_nil_iff_forall_not_mem.mpr fun c hc => ?_))
  exact String.utf8EncodeChar_ne_nil (hnone c hc)

theorem Bytes.newline_not_mem (h : content.text? = some text) (hline : '\n' ∉ text.toList) :
    10 ∉ content := by
  rw [eq_encoded_of_text? h, List.mem_flatMap]
  rintro ⟨c, hc, hbyte⟩
  obtain rfl := eq_newline_of_mem_encoded hbyte
  exact hline hc

namespace Console

theorem lines_eq_singleton (hne : content ≠ []) (hfeed : 10 ∉ content) :
    lines content = [content] := by
  induction content with
  | nil => exact absurd rfl hne
  | cons byte rest ih =>
      rw [List.mem_cons, not_or] at hfeed
      obtain ⟨hbyte, hrest⟩ := hfeed
      have hreturn : ∀ more, byte = 13 → rest ≠ 10 :: more := by
        rintro more - rfl
        exact hrest List.mem_cons_self
      rw [lines_cons (Ne.symm hbyte) hreturn]
      cases rest with
      | nil => rfl
      | cons next rest => rw [ih nofun hrest]

/-- The value of a program that has been read is not negative. -/
theorem valueLine_of_evaluate {mode : Mode} {value : Option Value}
    (h : evaluate mode text = .ok value) :
    valueLine value = "" ∨ ∃ n : Nat, valueLine value = toString n ++ "\n" := by
  unfold evaluate at h
  split at h
  · cases h
  next p hparse =>
    split at h
    · cases h
    next found hfound =>
      cases h
      have hlenient : (p.evaluate .lenient).outcome = .ok value := by
        cases mode with
        | lenient => exact hfound
        | strict => rw [Program.evaluate_lenient_of_strict hfound, hfound]
      match value with
      | none => exact .inl rfl
      | some (.integer v) =>
          have hlast := List.mem_of_getLast? ((p.lenient_eq_some_iff v).mp hlenient)
          have hlegal : 0 ≤ v.toInt := (Program.legal_of_parse hparse).of_mem hlast
          obtain ⟨n, -, htext⟩ := exists_toString_eq hlegal
          exact .inr ⟨n, by rw [valueLine, Value.text, htext]⟩

/-- A text of one line is answered alike in a file and on the standard input. -/
theorem one_line_agrees {mode : Mode} {files : String → Entity} {path : String}
    {args args' : List String} (hargs : Request.ofArguments args = .run mode (some path))
    (hargs' : Request.ofArguments args' = .run mode none) (hfile : files path = .file content)
    (htext : content.text? = some text) (hne : text ≠ "") (hline : '\n' ∉ text.toList)
    (stdin : Bytes) :
    let alone := run files stdin args
    let typed := run files content args'
    (alone.exit = 0 ∧ (alone.stdout = "" ∨ ∃ n : Nat, alone.stdout = toString n ++ "\n") ∧
      alone.stderr = "" ∧ typed = ⟨0, ">> " ++ alone.stdout ++ ">> \n", ""⟩) ∨
    (alone.exit = 1 ∧ alone.stdout = "" ∧
      ((∃ message, alone.stderr = "Parsing Error: " ++ message) ∨
        ∃ message, alone.stderr = "Runtime Error: " ++ message) ∧
      typed = ⟨0, ">> " ++ alone.stderr ++ ">> \n", ""⟩) := by
  have hlines := lines_eq_singleton (Bytes.ne_nil_of_text? htext hne) (Bytes.newline_not_mem htext hline)
  have htyped : run files content args' = ⟨0, ">> " ++ reply mode text ++ ">> \n", ""⟩ := by
    have hend : answers mode [] = "" := rfl
    rw [run, hargs', perform, hlines, converse_texts mode (by simp [htext]), answers_cons mode htext,
      hend, String.append_empty]
    rfl
  have halone : run files stdin args = runFile mode (.file content) := by
    rw [run, hargs, perform, hfile]
  dsimp only
  rw [htyped, halone]
  simp only [runFile, Entity.text, Bytes.decode, htext, reply]
  cases h : evaluate mode text with
  | ok value => exact .inl ⟨rfl, valueLine_of_evaluate h, rfl, rfl⟩
  | error e => exact .inr ⟨rfl, rfl, e.line_cases, rfl⟩

/-- A carriage return at the end stays in the line. -/
theorem one_line_agrees_return :
    Request.ofArguments ["f"] = .run .lenient (some "f") ∧
      Request.ofArguments [] = .run .lenient none ∧
      Bytes.text? [53, 13] = some "5\r" ∧ "5\r" ≠ "" ∧ '\n' ∉ "5\r".toList ∧
      run (fun _ => .file [53, 13]) [] ["f"] = ⟨0, "5\n", ""⟩ ∧
      run (fun _ => .file [53, 13]) [53, 13] [] = ⟨0, ">> " ++ "5\n" ++ ">> \n", ""⟩ := by
  have hargs : Request.ofArguments ["f"] = .run .lenient (some "f") := by decide
  have hargs' : Request.ofArguments [] = .run .lenient none := by decide
  have htext : Bytes.text? [53, 13] = some "5\r" := by decide +kernel
  have hline : '\n' ∉ "5\r".toList := by decide
  have halone : run (fun _ => .file [53, 13]) [] ["f"] = ⟨0, "5\n", ""⟩ := by decide +kernel
  refine ⟨hargs, hargs', htext, by decide, hline, halone, ?_⟩
  have hagrees (files : String → Entity) (hfile : files "f" = .file [53, 13]) :=
    one_line_agrees hargs hargs' hfile htext (by decide) hline []
  obtain h | h := hagrees (fun _ => .file [53, 13]) rfl
  · rw [halone] at h
    exact h.2.2.2
  · rw [halone] at h
    cases h.1

end Console
end MonkeyLang
