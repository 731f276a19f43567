import MonkeyLang.Proofs.Parse.Characterization
import MonkeyLang.Proofs.Program.Legal

/-!
What a text can denote. Its tokens can be written, and a program that is built from them has only
names that are words and integers that are not negative.
-/
namespace MonkeyLang

/-- The tokens can be written, and no integer among them is too large. -/
def Fits (ts : List Token) : Prop := ∀ t ∈ ts, t.Legible ∧ t.oversized? = none

theorem Fits.of_subset {ts us : List Token} (h : Fits us) (hs : ts ⊆ us) : Fits ts :=
  fun t ht => h t (hs ht)

theorem fits_append {ts us : List Token} : Fits (ts ++ us) ↔ Fits ts ∧ Fits us :=
  List.forall_mem_append

theorem fits_cons {t : Token} {ts : List Token} :
    Fits (t :: ts) ↔ (t.Legible ∧ t.oversized? = none) ∧ Fits ts :=
  List.forall_mem_cons

theorem Fits.firstOversized {ts : List Token} (h : Fits ts) : firstOversized ts = none :=
  List.findSome?_eq_none_iff.mpr fun t ht => (h t ht).2

/-- The tokens of a text can be written, since they are written there. -/
theorem fits_of_tokensOf {cs : List Char} {ts : List Token} (ht : tokensOf cs = ts)
    (h : firstOversized ts = none) : Fits ts :=
  fun t hmem => ⟨legible_of_mem_tokensOf cs t (ht ▸ hmem), List.findSome?_eq_none_iff.mp h t hmem⟩

theorem Fits.parenthesized {ts : List Token} (h : Fits (parenthesized ts)) : Fits ts :=
  h.of_subset fun _ ht => List.mem_cons_of_mem _ (List.mem_append_left _ ht)

theorem Fits.braced {ts : List Token} (h : Fits (braced ts)) : Fits ts :=
  h.of_subset fun _ ht => List.mem_cons_of_mem _ (List.mem_append_left _ ht)

theorem Fits.separated {item : List Token} {items : List (List Token)}
    (h : Fits (separated (item :: items))) : Fits item ∧ Fits (separated items) := by
  cases items with
  | nil => exact ⟨h, fun _ ht => nomatch ht⟩
  | cons next items =>
      obtain ⟨hitem, hmore⟩ := fits_append.mp h
      exact ⟨hitem, (fits_cons.mp hmore).2⟩

theorem Fits.names {names : List String} (h : Fits (MonkeyLang.separated (names.map ([.name ·])))) :
    ∀ name ∈ names, IsName name := by
  induction names with
  | nil => exact fun name hname => nomatch hname
  | cons name names ih =>
      obtain ⟨hname, hmore⟩ := h.separated
      exact List.forall_mem_cons.mpr ⟨(hname _ List.mem_cons_self).1, ih hmore⟩

mutual

theorem Phrase.legal : (p : Phrase) → Fits p.tokens → p.toExpression.Legal
  | .name text, h => (h (.name text) List.mem_cons_self).1
  | .numeral digits, h => by
      have hfits : isOversized digits.toList = false := by
        simpa [Token.oversized?] using (h (.numeral digits) List.mem_cons_self).2
      rw [Phrase.toExpression, Expression.Legal, toInt_numeralValue hfits]
      exact Int.natCast_nonneg _
  | .boolean _, _ => trivial
  | .grouped inner, h => inner.legal h.parenthesized
  | .unary _ operand, h => operand.legal (fits_cons.mp h).2
  | .binary left _ right, h => by
      obtain ⟨hleft, hright⟩ := fits_append.mp h
      exact ⟨left.legal hleft, right.legal (fits_cons.mp hright).2⟩
  | .conditional test yes none, h => by
      obtain ⟨htest, hyes⟩ := fits_append.mp h
      exact ⟨test.legal (fits_cons.mp htest).2.parenthesized, legal_toStatements yes hyes.braced⟩
  | .conditional test yes (some no), h => by
      obtain ⟨hthen, hno⟩ := fits_append.mp h
      obtain ⟨htest, hyes⟩ := fits_append.mp hthen
      exact ⟨test.legal (fits_cons.mp htest).2.parenthesized, legal_toStatements yes hyes.braced,
        legal_toStatements no (fits_cons.mp hno).2.braced⟩
  | .function params body, h => by
      obtain ⟨hparams, hbody⟩ := fits_append.mp h
      exact ⟨(fits_cons.mp hparams).2.parenthesized.names, legal_toStatements body hbody.braced⟩
  | .call callee args, h => by
      obtain ⟨hcallee, hargs⟩ := fits_append.mp h
      exact ⟨callee.legal hcallee, legal_toExpressions args hargs.parenthesized⟩

theorem Clause.legal : (c : Clause) → Fits c.tokens → c.toStatement.Legal
  | .binding _ value _, h => by
      obtain ⟨-, h⟩ := fits_cons.mp h
      obtain ⟨hname, h⟩ := fits_cons.mp h
      exact ⟨hname.1, value.legal (fits_append.mp (fits_cons.mp h).2).1⟩
  | .returning value _, h => value.legal (fits_append.mp (fits_cons.mp h).2).1
  | .expression value _, h => value.legal (fits_append.mp h).1

theorem legal_toStatements : (cs : List Clause) → Fits (clauseTokens cs) →
    StatementsLegal (toStatements cs)
  | [], _ => trivial
  | c :: cs, h => by
      obtain ⟨hc, hcs⟩ := fits_append.mp h
      exact ⟨c.legal hc, legal_toStatements cs hcs⟩

theorem legal_toExpressions : (ps : List Phrase) → Fits (separated (phraseTokens ps)) →
    ExpressionsLegal (toExpressions ps)
  | [], _ => trivial
  | p :: ps, h => ⟨p.legal h.separated.1, legal_toExpressions ps h.separated.2⟩

end

theorem Program.legal_of_parse {text : String} {p : Program} (h : parse text = .ok p) :
    p.Legal := by
  obtain ⟨cs, -, ht, hfits, rfl⟩ := parse_eq_ok_iff.mp h
  exact legal_toStatements cs (fits_of_tokensOf ht hfits)

end MonkeyLang
