import MonkeyLang.Source.Token

/-!
How a text is cut into tokens: layout before a token leaves no trace, and the longest token at the
head of a text is settled by the characters up to the first one that does not belong to it.
-/
namespace MonkeyLang

theorem splitLayoutFrom_rest (inComment : Bool) (cs : List Char) :
    splitLayout (splitLayoutFrom inComment cs).2 = ([], (splitLayoutFrom inComment cs).2) := by
  fun_induction splitLayoutFrom with
  | case1 => rfl
  | case2 c cs layout rest h ih => simpa only [h] using ih
  | case3 cs layout rest h ih => simpa only [h] using ih
  | case4 c cs hslash hc layout rest h ih => simpa only [h] using ih
  | case5 c cs hslash hc =>
      simp only [splitLayout]
      unfold splitLayoutFrom
      split <;> simp_all

theorem splitLayout_rest (cs : List Char) :
    splitLayout (splitLayout cs).2 = ([], (splitLayout cs).2) :=
  splitLayoutFrom_rest false cs

theorem tokensOf_eq_nil {cs : List Char} (h : (splitLayout cs).2 = []) : tokensOf cs = [] := by
  unfold tokensOf
  split
  · rfl
  · next h' => simp [h] at h'

theorem tokensOf_nil : tokensOf [] = [] := tokensOf_eq_nil rfl

theorem tokensOf_eq_cons {cs rest : List Char} {c : Char} (h : (splitLayout cs).2 = c :: rest) :
    tokensOf cs = (Token.next c rest).1 :: tokensOf (Token.next c rest).2 := by
  rw [tokensOf]
  split
  · next h' => simp [h] at h'
  · next c' rest' h' =>
      rw [h] at h'
      cases h'
      rfl

theorem Token.length_next_lt {cs rest : List Char} {c : Char}
    (h : (splitLayout cs).2 = c :: rest) : (next c rest).2.length < cs.length := by
  have hle := length_splitLayout_le cs
  have hnext := length_next_le c rest
  rw [h, List.length_cons] at hle
  omega

theorem tokensOf_splitLayout (cs : List Char) : tokensOf (splitLayout cs).2 = tokensOf cs := by
  cases h : (splitLayout cs).2 with
  | nil => rw [tokensOf_eq_nil h, tokensOf_nil]
  | cons c rest =>
      have hrest := congrArg Prod.snd (splitLayout_rest cs)
      rw [h] at hrest
      rw [tokensOf_eq_cons h, tokensOf_eq_cons hrest]

theorem takeWhile_append_of_stop {p : Char → Bool} {w r : List Char} (hw : ∀ c ∈ w, p c = true)
    (hr : r.head?.any p = false) : (w ++ r).takeWhile p = w ∧ (w ++ r).dropWhile p = r := by
  rw [List.takeWhile_append_of_pos hw, List.dropWhile_append_of_pos hw]
  cases r with
  | nil => simp
  | cons c r => simp_all

theorem head?_dropWhile_any (p : Char → Bool) (cs : List Char) :
    (cs.dropWhile p).head?.any p = false := by
  induction cs with
  | nil => rfl
  | cons c cs ih =>
      rw [List.dropWhile_cons]
      split
      · exact ih
      · simp_all

theorem Token.next_word {ch : Char} {cs w r : List Char} (h : ch :: cs = w ++ r)
    (hstart : isWordStart ch = true) (hw : ∀ c ∈ w, isWordPart c = true)
    (hr : r.head?.any isWordPart = false) : next ch cs = (ofWord (String.ofList w), r) := by
  have hch : isWordPart ch = true := isWordPart_of_isWordStart hstart
  obtain ⟨ht, hd⟩ := takeWhile_append_of_stop hw hr
  rw [← h] at ht hd
  rw [List.takeWhile_cons_of_pos hch] at ht
  rw [List.dropWhile_cons_of_pos hch] at hd
  simp only [next, hstart, ite_true, ht, hd]

theorem Token.ofWord_text (k : Keyword) : ofWord k.text = keyword k := by cases k <;> rfl

/-- Whether a token begins with a letter. -/
def Token.isWord : Token → Bool
  | keyword _ | name _ => true
  | numeral _ | equal | notEqual | symbol _ => false

theorem Token.isWord_ofWord (word : String) : (ofWord word).isWord = true := by
  unfold ofWord
  split <;> rfl

theorem Token.isWord_next (ch : Char) (cs : List Char) :
    (next ch cs).1.isWord = isWordStart ch := by
  unfold next
  split
  · next h => rw [h, isWord_ofWord]
  · next h =>
      rw [Bool.not_eq_true] at h
      rw [h]
      split
      · rfl
      · split <;> rfl

theorem isWordStart_of_isDigit {c : Char} (h : c.isDigit = true) : isWordStart c = false := by
  have hne : c ≠ '_' := by
    rintro rfl
    exact absurd h (by decide)
  have hA : 'A'.val.toNat = 65 := rfl
  have ha : 'a'.val.toNat = 97 := rfl
  have h9 : '9'.val.toNat = 57 := rfl
  have hstart : isWordStart c = ((decide ('A'.val ≤ c.val ∧ c.val ≤ 'Z'.val) ||
      decide ('a'.val ≤ c.val) && decide (c.val ≤ 'z'.val)) || decide (c = '_')) := rfl
  simp only [hstart, Char.isDigit, hne, Bool.and_eq_true, decide_eq_true_eq, decide_false,
    Bool.or_false, Bool.or_eq_false_iff, Bool.and_eq_false_iff, decide_eq_false_iff_not,
    UInt32.le_iff_toNat_le, ge_iff_le] at *
  omega

theorem Token.next_digit {ch : Char} (cs : List Char) (h : ch.isDigit = true) :
    next ch cs = (numeral (String.ofList (ch :: cs.takeWhile Char.isDigit)),
      cs.dropWhile Char.isDigit) := by
  simp only [next, isWordStart_of_isDigit h, h, Bool.false_eq_true, ite_false, ite_true]

theorem Token.isDigit_of_next {ch : Char} {cs : List Char} {digits : String}
    (h : (next ch cs).1 = numeral digits) : ch.isDigit = true := by
  unfold next at h
  split at h
  · unfold ofWord at h
    split at h <;> cases h
  split at h
  · assumption
  · split at h <;> cases h

theorem Keyword.isWordPart_text (k : Keyword) : ∀ c ∈ k.text.toList, isWordPart c = true :=
  List.all_eq_true.mp (by cases k <;> decide)

theorem Token.next_symbol {ch : Char} {cs : List Char} (hstart : isWordStart ch = false)
    (hdigit : ch.isDigit = false) (h : cs.head? ≠ some '=') : next ch cs = (symbol ch, cs) := by
  simp only [next, hstart, hdigit, Bool.false_eq_true, ite_false]
  split <;> simp_all

end MonkeyLang
