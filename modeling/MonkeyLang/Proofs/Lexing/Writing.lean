import MonkeyLang.Proofs.Lexing.Passes

/-!
Writing tokens down. A token that is written is read back if the character behind it does not
lengthen it, so tokens that are set apart by blanks are read back one by one. The tokens of a text
are such tokens.
-/
namespace MonkeyLang

/-- A word that is no keyword. -/
def IsName (text : String) : Prop :=
  text.toList.head?.any isWordStart = true ∧ text.toList.all isWordPart = true ∧
    ∀ k ∈ Keyword.all, k.text ≠ text

def IsNumeral (text : String) : Prop :=
  text.toList ≠ [] ∧ text.toList.all Char.isDigit = true

instance (text : String) : Decidable (IsName text) := inferInstanceAs (Decidable (_ ∧ _ ∧ _))

instance (text : String) : Decidable (IsNumeral text) := inferInstanceAs (Decidable (_ ∧ _))

namespace Token

/-- Whether the token can be read from some text. -/
def Legible : Token → Prop
  | keyword _ | equal | notEqual => True
  | name text => IsName text
  | numeral digits => IsNumeral digits
  | symbol c => isBlank c = false ∧ isWordPart c = false

instance : DecidablePred Legible
  | keyword _ | equal | notEqual => isTrue trivial
  | name text => inferInstanceAs (Decidable (IsName text))
  | numeral digits => inferInstanceAs (Decidable (IsNumeral digits))
  | symbol c => inferInstanceAs (Decidable (isBlank c = false ∧ isWordPart c = false))

/-- Whether the token is another one with the character right behind it. -/
def clashes (t : Token) (c : Char) : Bool :=
  match t with
  | keyword _ | name _ => isWordPart c
  | numeral _ => c.isDigit
  | equal | notEqual => false
  | symbol s => ((s = '=' || s = '!') && c = '=') || (s = '/' && c = '/')

theorem ofWord_of_isName {text : String} (h : IsName text) : ofWord text = name text := by
  unfold ofWord
  split
  · next k hk => exact absurd (by simpa using List.find?_some hk) (h.2.2 k k.mem_all)
  · rfl

end Token

theorem isBlank_of_isWordPart {c : Char} (h : isWordPart c = true) : isBlank c = false := by
  rw [← Bool.not_eq_true]
  intro hb
  simp only [isBlank, isNewline, Bool.or_eq_true, decide_eq_true_eq] at hb
  rcases hb with (rfl | rfl) | rfl | rfl <;> exact absurd h (by decide)

theorem isWordPart_of_isDigit {c : Char} (h : c.isDigit = true) : isWordPart c = true := by
  simp [isWordPart, Char.isAlphanum, h]

theorem tokensOf_cons {ch : Char} {cs : List Char} (h : isBlank ch = false)
    (hslash : ch = '/' → cs.head? ≠ some '/') :
    tokensOf (ch :: cs) = (Token.next ch cs).1 :: tokensOf (Token.next ch cs).2 := by
  apply tokensOf_eq_cons
  unfold splitLayout
  rw [splitLayoutFrom]
  · simp [h]
  · rintro cs' rfl rfl
    exact hslash rfl rfl

theorem tokensOf_blank {ch : Char} (h : isBlank ch = true) (cs : List Char) :
    tokensOf (ch :: cs) = tokensOf cs := by
  have hslash : ch ≠ '/' := by
    rintro rfl
    exact absurd h (by decide)
  rw [← tokensOf_splitLayout (ch :: cs), ← tokensOf_splitLayout cs]
  congr 1
  unfold splitLayout
  rw [splitLayoutFrom]
  · simp [h]
  · intro cs' hch
    exact absurd hch hslash

theorem tokensOf_word_append {w r : List Char} (hstart : w.head?.any isWordStart = true)
    (hpart : ∀ c ∈ w, isWordPart c = true) (hr : r.head?.any isWordPart = false) :
    tokensOf (w ++ r) = Token.ofWord (String.ofList w) :: tokensOf r := by
  cases w with
  | nil => cases hstart
  | cons ch cs =>
      have hnext := Token.next_word (List.cons_append).symm hstart hpart hr
      have hblank := isBlank_of_isWordPart (hpart ch List.mem_cons_self)
      rw [List.cons_append, tokensOf_cons hblank, hnext]
      rintro rfl
      have hslash : isWordStart '/' = true := hstart
      exact absurd hslash (by decide)

theorem tokensOf_digits_append {w r : List Char} (hne : w ≠ [])
    (hw : ∀ c ∈ w, c.isDigit = true) (hr : r.head?.any Char.isDigit = false) :
    tokensOf (w ++ r) = .numeral (String.ofList w) :: tokensOf r := by
  obtain ⟨ch, cs, rfl⟩ := List.exists_cons_of_ne_nil hne
  have hch := hw ch List.mem_cons_self
  obtain ⟨ht, hd⟩ := takeWhile_append_of_stop
    (fun c hc => hw c (List.mem_cons_of_mem ch hc)) hr
  rw [List.cons_append, tokensOf_cons (isBlank_of_isWordPart (isWordPart_of_isDigit hch)),
    Token.next_digit _ hch, ht, hd]
  rintro rfl
  exact absurd hch (by decide)

theorem tokensOf_symbol_append {ch : Char} {r : List Char} (hb : isBlank ch = false)
    (hw : isWordPart ch = false) (hr : r.head?.any (Token.symbol ch).clashes = false) :
    tokensOf (ch :: r) = .symbol ch :: tokensOf r := by
  have hstart : isWordStart ch = false := by
    rw [← Bool.not_eq_true]
    intro h
    rw [isWordPart_of_isWordStart h] at hw
    cases hw
  have hdigit : ch.isDigit = false := by
    rw [← Bool.not_eq_true]
    intro h
    rw [isWordPart_of_isDigit h] at hw
    cases hw
  have hnext : Token.next ch r = (.symbol ch, r) := by
    unfold Token.next
    rw [hstart, hdigit]
    simp only [Bool.false_eq_true, ite_false]
    split <;> simp_all [Token.clashes]
  rw [tokensOf_cons hb, hnext]
  rintro rfl hslash
  obtain ⟨r', rfl⟩ := List.head?_eq_some_iff.mp hslash
  simp [Token.clashes] at hr

/-- A token that is written is read back, if it does not clash with what follows. -/
theorem tokensOf_append {t : Token} {r : List Char} (ht : t.Legible)
    (hr : r.head?.any t.clashes = false) : tokensOf (t.text.toList ++ r) = t :: tokensOf r := by
  cases t with
  | keyword k =>
      rw [Token.text, tokensOf_word_append ?_ k.isWordPart_text hr, String.ofList_toList,
        Token.ofWord_text]
      cases k <;> decide
  | name text =>
      rw [Token.text, tokensOf_word_append ht.1 (List.all_eq_true.mp ht.2.1) hr,
        String.ofList_toList, Token.ofWord_of_isName ht]
  | numeral digits =>
      rw [Token.text, tokensOf_digits_append ht.1 (List.all_eq_true.mp ht.2) hr,
        String.ofList_toList]
  | equal =>
      change tokensOf ('=' :: '=' :: r) = _
      exact tokensOf_cons (by decide) fun h => absurd h (by decide)
  | notEqual =>
      change tokensOf ('!' :: '=' :: r) = _
      exact tokensOf_cons (by decide) fun h => absurd h (by decide)
  | symbol c =>
      rw [Token.text, String.toList_singleton, List.singleton_append,
        tokensOf_symbol_append ht.1 ht.2 hr]

theorem tokensOf_text {t : Token} (ht : t.Legible) : tokensOf t.text.toList = [t] := by
  have h := tokensOf_append (r := []) ht rfl
  rwa [List.append_nil, tokensOf_nil] at h

/-- Tokens with a blank behind each of them. -/
def spaced (ts : List Token) : String :=
  String.ofList (ts.flatMap fun t => t.text.toList ++ [' '])

theorem Token.clashes_blank (t : Token) : t.clashes ' ' = false := by
  cases t with
  | symbol s => simp [clashes]
  | keyword _ | name _ | numeral _ | equal | notEqual => rfl

theorem tokensOf_spaced {ts : List Token} (h : ∀ t ∈ ts, t.Legible) :
    tokensOf (spaced ts).toList = ts := by
  rw [spaced, String.toList_ofList]
  induction ts with
  | nil => exact tokensOf_nil
  | cons t ts ih =>
      have hblank (r : List Char) : (' ' :: r).head?.any t.clashes = false := t.clashes_blank
      rw [List.flatMap_cons, List.append_assoc, List.singleton_append,
        tokensOf_append (h t List.mem_cons_self) (hblank _), tokensOf_blank (by decide),
        ih fun u hu => h u (List.mem_cons_of_mem t hu)]

theorem Token.legible_ofWord {word : String} (hstart : word.toList.head?.any isWordStart = true)
    (hpart : word.toList.all isWordPart = true) : (ofWord word).Legible := by
  unfold ofWord
  split
  · trivial
  · next h =>
      rw [List.find?_eq_none] at h
      exact ⟨hstart, hpart, fun k hk heq => h k hk (by simpa using heq)⟩

theorem Token.legible_next {ch : Char} (hblank : isBlank ch = false) (cs : List Char) :
    (next ch cs).1.Legible := by
  unfold next
  split
  · next hstart =>
      refine legible_ofWord (by simpa using hstart) ?_
      simp only [String.toList_ofList, List.all_cons, Bool.and_eq_true]
      exact ⟨isWordPart_of_isWordStart hstart, List.all_takeWhile⟩
  · next hstart =>
      split
      · next hdigit =>
          refine ⟨by simp, ?_⟩
          simp only [String.toList_ofList, List.all_cons, Bool.and_eq_true]
          exact ⟨hdigit, List.all_takeWhile⟩
      · next hdigit =>
          split
          · trivial
          · trivial
          · refine ⟨hblank, ?_⟩
            simp_all [isWordPart, isWordStart, Char.isAlphanum]

theorem legible_of_mem_tokensOf (cs : List Char) : ∀ t ∈ tokensOf cs, t.Legible := by
  cases hc : (splitLayout cs).2 with
  | nil =>
      rw [tokensOf_eq_nil hc]
      exact fun t ht => nomatch ht
  | cons ch rest =>
      have hsettled := splitLayout_rest cs
      rw [hc, splitLayout_eq_self_iff] at hsettled
      have hlt := Token.length_next_lt hc
      rw [tokensOf_eq_cons hc]
      exact List.forall_mem_cons.mpr ⟨Token.legible_next hsettled.1 rest, legible_of_mem_tokensOf _⟩
termination_by cs.length
end MonkeyLang
