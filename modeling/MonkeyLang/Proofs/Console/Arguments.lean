import MonkeyLang.Console.Run

/-!
What a run does, told by its arguments. The first argument that decides alone makes the outcome:
nothing behind it counts, and neither files nor the standard input are looked at. Without such an
argument there are only `--strict`, any number of times, and at most one path, and their order makes
no difference. Whatever is run, unless the lines of the standard input are answered, a failure is
told on the standard error and nowhere else.
-/
namespace MonkeyLang

/-- A failure is told on the standard error, and then nothing is written elsewhere. -/
def Output.TellsFailure (out : Output) : Prop :=
  (out.exit = 1 ↔ out.stderr ≠ "") ∧ (out.exit = 1 → out.stdout = "")

namespace Request

def isOption (arg : String) : Bool := arg.toList.head? = some '-'

/-- The arguments that name a file. -/
def paths (args : List String) : List String := args.filter (!isOption ·)

/-- Behind some arguments, another one decides alone. -/
def Decides (before : List String) (arg : String) : Prop :=
  arg = "-h" ∨ arg = "--help" ∨ (isOption arg = true ∧ arg ≠ "--strict") ∨
    (isOption arg = false ∧ ∃ other ∈ before, isOption other = false)

/-- None of the arguments decides alone. -/
def Undecided (args : List String) : Prop :=
  ∀ before arg after, args = before ++ arg :: after → ¬ Decides before arg

/-- The mode that arguments ask for if none of them decides alone. -/
def modeOf (args : List String) : Mode := if "--strict" ∈ args then .strict else .lenient

/-- What an argument asks for if it decides alone. -/
def verdict (arg : String) : Request :=
  if arg = "-h" ∨ arg = "--help" then help
  else if isOption arg then unknownOption arg
  else tooManyPaths

section Arguments

variable {mode : Mode} {path : Option String} {before args args' : List String} {arg : String}

theorem isOption_of_help (h : arg = "-h" ∨ arg = "--help") : isOption arg = true := by
  rcases h with rfl | rfl <;> decide

theorem mem_paths : arg ∈ paths args ↔ arg ∈ args ∧ isOption arg = false := by
  rw [paths, List.mem_filter, Bool.not_eq_true']

/-- Only `--strict` begins with a dash, and there is at most one path. -/
theorem undecided_iff :
    Undecided args ↔ (∀ arg ∈ args, isOption arg = true → arg = "--strict") ∧
      (paths args).length ≤ 1 := by
  constructor
  · intro h
    refine ⟨fun arg hmem hoption => Decidable.byContradiction fun hne => ?_,
      Nat.le_of_not_lt fun hlong => ?_⟩
    · obtain ⟨before, after, rfl⟩ := List.append_of_mem hmem
      exact h before arg after rfl (.inr (.inr (.inl ⟨hoption, hne⟩)))
    · match hpaths : paths args with
      | [] | [_] => simp [hpaths] at hlong
      | first :: second :: _ =>
          obtain ⟨before, rest, rfl, -, hfirst, hrest⟩ := List.filter_eq_cons_iff.mp hpaths
          obtain ⟨between, after, rfl, -, hsecond, -⟩ := List.filter_eq_cons_iff.mp hrest
          refine h (before ++ first :: between) second after (by simp) (.inr (.inr (.inr ⟨?_, ?_⟩)))
          · simpa using hsecond
          · exact ⟨first, by simp, by simpa using hfirst⟩
  · rintro ⟨hoptions, hpaths⟩ before arg after rfl hdecides
    have harg := hoptions arg (by simp)
    obtain h | h | ⟨hoption, hne⟩ | ⟨hpath, other, hother, hbefore⟩ := hdecides
    · subst h
      exact absurd (harg (by decide)) (by decide)
    · subst h
      exact absurd (harg (by decide)) (by decide)
    · exact hne (harg hoption)
    · have hfirst := List.length_pos_of_mem (mem_paths.mpr ⟨hother, hbefore⟩)
      rw [paths, List.filter_append, List.filter_cons_of_pos (by simp [hpath]),
        List.length_append, List.length_cons] at hpaths
      rw [paths] at hfirst
      omega

/-- Arguments of which none decides set the mode and the path. -/
theorem ofArgumentsFrom_append (after : List String)
    (hoptions : ∀ arg ∈ before, isOption arg = true → arg = "--strict")
    (hpaths : path.toList.length + (paths before).length ≤ 1) :
    ofArgumentsFrom mode path (before ++ after) =
      ofArgumentsFrom (if "--strict" ∈ before then .strict else mode)
        (path.or (paths before).head?) after := by
  induction before generalizing mode path with
  | nil => simp [paths]
  | cons arg before ih =>
      obtain ⟨harg, hmore⟩ := List.forall_mem_cons.mp hoptions
      rw [List.cons_append, ofArgumentsFrom]
      by_cases hstrict : arg = "--strict"
      · subst hstrict
        have hnot : paths ("--strict" :: before) = paths before :=
          List.filter_cons_of_neg (by decide)
        rw [hnot] at hpaths ⊢
        rw [if_pos rfl, ih hmore hpaths]
        simp
      · have hoption : isOption arg = false := by
          rw [← Bool.not_eq_true]
          exact fun h => hstrict (harg h)
        have hhelp : ¬ (arg = "-h" ∨ arg = "--help") := fun h => by
          rw [isOption_of_help h] at hoption
          cases hoption
        have hfirst : paths (arg :: before) = arg :: paths before :=
          List.filter_cons_of_pos (by simp [hoption])
        rw [hfirst, List.length_cons] at hpaths
        have hnone : path = none := by
          cases path with
          | none => rfl
          | some first =>
              rw [Option.toList_some, List.length_singleton] at hpaths
              omega
        have hrest : paths before = [] := by
          rw [← List.length_eq_zero_iff]
          omega
        rw [if_neg hstrict, if_neg hhelp, if_neg (by simpa [isOption] using hoption), hnone,
          if_neg (by simp), ih hmore (by simp [hrest]), hfirst]
        simp [Ne.symm hstrict]

theorem ofArguments_of_undecided (h : Undecided args) :
    ofArguments args = run (modeOf args) (paths args).head? := by
  obtain ⟨hoptions, hpaths⟩ := undecided_iff.mp h
  have happend : ofArgumentsFrom .lenient none (args ++ []) =
      ofArgumentsFrom (if "--strict" ∈ args then .strict else .lenient)
        (none.or (paths args).head?) [] :=
    ofArgumentsFrom_append [] hoptions (by simpa using hpaths)
  rw [List.append_nil] at happend
  rw [ofArguments, happend, ofArgumentsFrom, modeOf, Option.none_or]

theorem ofArguments_of_decides (h : Undecided before) (harg : Decides before arg)
    (after : List String) : ofArguments (before ++ arg :: after) = verdict arg := by
  obtain ⟨hoptions, hpaths⟩ := undecided_iff.mp h
  have hstrict : arg ≠ "--strict" := by
    rintro rfl
    obtain h | h | h | h := harg
    · exact absurd h (by decide)
    · exact absurd h (by decide)
    · exact h.2 rfl
    · exact absurd h.1 (by decide)
  rw [ofArguments, ofArgumentsFrom_append _ hoptions (by simpa using hpaths), ofArgumentsFrom,
    if_neg hstrict, verdict]
  by_cases hhelp : arg = "-h" ∨ arg = "--help"
  · rw [if_pos hhelp, if_pos hhelp]
  · rw [if_neg hhelp, if_neg hhelp]
    by_cases hoption : isOption arg = true
    · rw [if_pos hoption, if_pos (by simpa [isOption] using hoption)]
    · rw [if_neg hoption, if_neg (by simpa [isOption] using hoption)]
      obtain ⟨other, hother, hpath⟩ : ∃ other ∈ before, isOption other = false := by
        obtain h | h | h | h := harg
        · exact absurd (.inl h) hhelp
        · exact absurd (.inr h) hhelp
        · exact absurd h.1 hoption
        · exact h.2
      have hfirst := List.ne_nil_of_mem (mem_paths.mpr ⟨hother, hpath⟩)
      rw [if_pos (by simpa using hfirst)]

/-- Only which arguments there are counts, and which of them name a file. -/
theorem Undecided.congr (h : Undecided args) (hmem : ∀ arg, arg ∈ args' ↔ arg ∈ args)
    (hpath : paths args' = paths args) :
    Undecided args' ∧ ofArguments args' = ofArguments args := by
  obtain ⟨hoptions, hpaths⟩ := undecided_iff.mp h
  have h' : Undecided args' := undecided_iff.mpr
    ⟨fun arg harg => hoptions arg ((hmem arg).mp harg), hpath ▸ hpaths⟩
  refine ⟨h', ?_⟩
  rw [ofArguments_of_undecided h, ofArguments_of_undecided h', hpath, modeOf, modeOf]
  simp only [hmem]

theorem Undecided.perm (h : Undecided args) (hperm : args.Perm args') :
    Undecided args' ∧ ofArguments args' = ofArguments args := by
  have hpaths : (paths args').Perm (paths args) := hperm.symm.filter _
  have hlength := (undecided_iff.mp h).2
  refine h.congr (fun arg => hperm.symm.mem_iff) ?_
  match hargs : paths args with
  | [] => exact List.perm_nil.mp (hargs ▸ hpaths)
  | [first] => exact List.perm_singleton.mp (hargs ▸ hpaths)
  | _ :: _ :: _ => simp [hargs] at hlength

theorem Undecided.strict_again {after : List String} (h : Undecided (before ++ after))
    (hstrict : "--strict" ∈ before ++ after) :
    Undecided (before ++ "--strict" :: after) ∧
      ofArguments (before ++ "--strict" :: after) = ofArguments (before ++ after) := by
  refine h.congr (fun arg => ⟨fun hmem => ?_, fun hmem => ?_⟩) ?_
  · obtain hbefore | rfl | hafter : arg ∈ before ∨ arg = "--strict" ∨ arg ∈ after := by
      simpa using hmem
    · exact List.mem_append_left _ hbefore
    · exact hstrict
    · exact List.mem_append_right _ hafter
  · rw [List.mem_append, List.mem_cons]
    exact (List.mem_append.mp hmem).imp_right .inr
  · rw [paths, List.filter_append, List.filter_cons_of_neg (by decide), ← List.filter_append, paths]

theorem Undecided.eq_strict_or_path (h : Undecided args) (hmem : arg ∈ args) :
    arg = "--strict" ∨ (paths args).head? = some arg := by
  obtain ⟨hoptions, hpaths⟩ := undecided_iff.mp h
  cases hoption : isOption arg with
  | true => exact .inl (hoptions arg hmem hoption)
  | false =>
      have hpath := mem_paths.mpr ⟨hmem, hoption⟩
      match hargs : paths args with
      | [] => simp [hargs] at hpath
      | [first] => exact .inr (by simpa [hargs, eq_comm] using hpath)
      | _ :: _ :: _ => simp [hargs] at hpaths

/-- Of the arguments that decide alone, one is the first. -/
theorem undecided_or_decides (args : List String) :
    Undecided args ∨ ∃ before arg after, args = before ++ arg :: after ∧
      Undecided before ∧ Decides before arg := by
  refine Classical.or_iff_not_imp_left.mpr fun h => ?_
  obtain ⟨before, arg, after, rfl, hdecides⟩ : ∃ before arg after, args = before ++ arg :: after ∧
      Decides before arg := by
    simpa [Undecided] using h
  obtain hbefore | ⟨xs, first, ys, rfl, hxs, hfirst⟩ := undecided_or_decides before
  · exact ⟨before, arg, after, rfl, hbefore, hdecides⟩
  · exact ⟨xs, first, ys ++ arg :: after, by simp, hxs, hfirst⟩
termination_by args.length
decreasing_by
  simp_all

theorem verdict_ne_run (arg : String) (mode : Mode) (path : Option String) :
    verdict arg ≠ run mode path := by
  unfold verdict
  split
  · nofun
  · split <;> nofun

/-- The lines of the standard input are answered if every argument is `--strict`. -/
theorem exists_ofArguments_eq_run_none :
    (∃ mode, ofArguments args = run mode none) ↔ ∀ arg ∈ args, arg = "--strict" := by
  constructor
  · rintro ⟨mode, h⟩
    obtain hundecided | ⟨before, arg, after, rfl, hbefore, harg⟩ := undecided_or_decides args
    · obtain ⟨hoptions, -⟩ := undecided_iff.mp hundecided
      rw [ofArguments_of_undecided hundecided, run.injEq, List.head?_eq_none_iff] at h
      refine fun arg hmem => hoptions arg hmem ?_
      rw [← Bool.not_eq_false]
      intro hpath
      have hnone := mem_paths.mpr ⟨hmem, hpath⟩
      rw [h.2] at hnone
      cases hnone
    · rw [ofArguments_of_decides hbefore harg] at h
      exact absurd h (verdict_ne_run arg mode none)
  · intro h
    have hpaths : paths args = [] := by
      rw [List.eq_nil_iff_forall_not_mem]
      intro arg hmem
      obtain ⟨hargs, hpath⟩ := mem_paths.mp hmem
      rw [h arg hargs] at hpath
      cases hpath
    have hundecided : Undecided args :=
      undecided_iff.mpr ⟨fun arg hmem _ => h arg hmem, by simp [hpaths]⟩
    exact ⟨modeOf args, by rw [ofArguments_of_undecided hundecided, hpaths]; rfl⟩

end Arguments

end Request

namespace Console

open Request

/-- What is written for an argument that decides alone. -/
def verdictOutput (arg : String) : Output :=
  if arg = "-h" ∨ arg = "--help" then ⟨0, usage, ""⟩
  else if isOption arg then ⟨1, "", "Unknown option " ++ arg ++ ".\n" ++ usage⟩
  else ⟨1, "", usage⟩

theorem perform_verdict (files : String → Entity) (stdin : Bytes) (arg : String) :
    perform files stdin (verdict arg) = verdictOutput arg := by
  unfold verdict verdictOutput
  split
  · rfl
  · split <;> rfl

theorem usage_ne_empty : usage ≠ "" := by decide

theorem Failure.line_ne_empty (e : Failure) : e.line ≠ "" := by
  obtain ⟨message, h⟩ | ⟨message, h⟩ := e.line_cases <;> simp [h]

theorem tellsFailure_success (stdout : String) : Output.TellsFailure ⟨0, stdout, ""⟩ := by
  simp [Output.TellsFailure]

theorem tellsFailure_failure {stderr : String} (h : stderr ≠ "") :
    Output.TellsFailure ⟨1, "", stderr⟩ := by
  simp [Output.TellsFailure, h]

theorem tellsFailure_runFile (mode : Mode) (entity : Entity) :
    (runFile mode entity).TellsFailure := by
  unfold runFile
  split
  · exact tellsFailure_failure (by simp)
  · split
    · exact tellsFailure_success _
    · exact tellsFailure_failure (Failure.line_ne_empty _)

example : runFile .strict .directory =
    ⟨1, "", "Ran into error while trying to open the file.\nIs a directory (os error 21)\n"⟩ := by
  decide +kernel

theorem tellsFailure_perform (files : String → Entity) (stdin : Bytes) {request : Request}
    (h : ∀ mode, request ≠ .run mode none) : (perform files stdin request).TellsFailure := by
  cases request with
  | help => exact tellsFailure_success _
  | unknownOption option => exact tellsFailure_failure (by simp [String.append_eq_empty_iff])
  | tooManyPaths => exact tellsFailure_failure usage_ne_empty
  | run mode path =>
      cases path with
      | none => exact absurd rfl (h mode)
      | some path => exact tellsFailure_runFile mode (files path)

/-- The first argument that decides alone makes the outcome. If there is none, only the mode and
the path count. -/
theorem arguments_decide :
    (∀ args, Undecided args ∨ ∃ before arg after, args = before ++ arg :: after ∧
      Undecided before ∧ Decides before arg) ∧
    (∀ before arg after, Undecided before → Decides before arg →
      (∀ mode path, ofArguments (before ++ arg :: after) ≠ .run mode path) ∧
        ∀ files stdin, run files stdin (before ++ arg :: after) = verdictOutput arg) ∧
    (∀ args, Undecided args →
      (∀ arg ∈ args, arg = "--strict" ∨ (paths args).head? = some arg) ∧
        ∀ files stdin, run files stdin args =
          perform files stdin (.run (modeOf args) (paths args).head?)) ∧
    (∀ args args', Undecided args → args.Perm args' →
      Undecided args' ∧ ∀ files stdin, run files stdin args' = run files stdin args) ∧
    (∀ before after, Undecided (before ++ after) → "--strict" ∈ before ++ after →
      Undecided (before ++ "--strict" :: after) ∧ ∀ files stdin,
        run files stdin (before ++ "--strict" :: after) = run files stdin (before ++ after)) ∧
    (∀ args, (∃ mode, ofArguments args = .run mode none) ↔ ∀ arg ∈ args, arg = "--strict") ∧
    ∀ files stdin args, (∃ arg ∈ args, arg ≠ "--strict") →
      (run files stdin args).TellsFailure := by
  refine ⟨undecided_or_decides, ?_, ?_, ?_, ?_, fun args => exists_ofArguments_eq_run_none, ?_⟩
  · intro before arg after hbefore harg
    have hverdict := ofArguments_of_decides hbefore harg after
    refine ⟨fun mode path => hverdict ▸ verdict_ne_run arg mode path, fun files stdin => ?_⟩
    rw [run, hverdict, perform_verdict]
  · intro args h
    refine ⟨fun arg hmem => h.eq_strict_or_path hmem, fun files stdin => ?_⟩
    rw [run, ofArguments_of_undecided h]
  · intro args args' h hperm
    obtain ⟨h', hsame⟩ := h.perm hperm
    exact ⟨h', fun files stdin => by rw [run, hsame, run]⟩
  · intro before after h hstrict
    obtain ⟨h', hsame⟩ := h.strict_again hstrict
    exact ⟨h', fun files stdin => by rw [run, hsame, run]⟩
  · rintro files stdin args ⟨arg, hmem, hne⟩
    refine tellsFailure_perform files stdin fun mode h => hne ?_
    exact exists_ofArguments_eq_run_none.mp ⟨mode, h⟩ arg hmem

/-- A second path decides, whatever stands behind it. -/
theorem arguments_decide_paths :
    Undecided ["--strict", "a"] ∧ Decides ["--strict", "a"] "" ∧
      (∀ after files stdin, run files stdin (["--strict", "a"] ++ "" :: after) = ⟨1, "", usage⟩) ∧
      (∀ files stdin, run files stdin ["a", "--strict"] = run files stdin ["--strict", "a"]) ∧
      (∀ files stdin, run files stdin ["--strict", "--strict", "a"] =
        run files stdin ["--strict", "a"]) ∧
      (run (fun _ => .missing) [] ["a"]).exit = 1 ∧ (run (fun _ => .missing) [] ["a"]).stdout = "" := by
  obtain ⟨-, hdecided, -, hperm, hagain, -, hfails⟩ := arguments_decide
  have h : Undecided ["--strict", "a"] := undecided_iff.mpr (by decide)
  have hsecond : Decides ["--strict", "a"] "" := .inr (.inr (.inr (by decide)))
  have hmissing := hfails (fun _ => .missing) [] ["a"] (by decide)
  refine ⟨h, hsecond, fun after files stdin => ?_, ?_, ?_, rfl, hmissing.2 rfl⟩
  · exact (hdecided _ _ after h hsecond).2 files stdin
  · exact (hperm _ ["a", "--strict"] h (.swap _ _ _)).2
  · exact (hagain [] ["--strict", "a"] h (by decide)).2

end Console
end MonkeyLang
