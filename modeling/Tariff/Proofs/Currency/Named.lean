import Mathlib
import Tariff.Currency.Basic
import Tariff.Proofs.Text.Codes
/-
  Tariff.Proofs.Currency.Named — the entry of the reference data that a code names.

  Looking a code up finds the first entry that matches it (`resolve?_eq_some_iff`) and nothing
  only where none does (`resolve?_eq_none_iff`); blanks around the code do not count.
-/

namespace Tariff

namespace Currency

/-- The entry that a typed code names: the first whose code matches. A blank code names none. -/
def Named (currencies : List Currency) (typed : String) (c : Currency) : Prop :=
  Text.trim typed ≠ "" ∧ ∃ before after, currencies = before ++ c :: after ∧
    Text.sameCode c.code typed = true ∧ ∀ d ∈ before, Text.sameCode d.code typed = false

theorem resolve?_eq_some_iff {currencies : List Currency} {typed : String} {c : Currency} :
    resolve? currencies typed = some c ↔ Named currencies typed c := by
  unfold resolve? Named
  by_cases hb : Text.isBlankText typed = true
  · simp [hb, (Text.isBlankText_iff typed).1 hb]
  · have hne : Text.trim typed ≠ "" := fun h => hb ((Text.isBlankText_iff typed).2 h)
    rw [if_neg hb, List.find?_eq_some_iff_append]
    simp only [hasCode, Bool.not_eq_true', ne_eq, hne, not_false_eq_true, true_and]
    constructor
    · intro hx
      obtain ⟨hc, before, after, rfl, hbefore⟩ := hx
      exact ⟨before, after, rfl, hc, hbefore⟩
    · intro hx
      obtain ⟨before, after, rfl, hc, hbefore⟩ := hx
      exact ⟨hc, before, after, rfl, hbefore⟩

theorem resolve?_eq_none_iff {currencies : List Currency} {typed : String} (h : Text.trim typed ≠ "") :
    resolve? currencies typed = none ↔ ∀ c ∈ currencies, Text.sameCode c.code typed = false := by
  have hb : ¬ Text.isBlankText typed = true := fun hb => h ((Text.isBlankText_iff typed).1 hb)
  simp [resolve?, hb, hasCode]

/-- A code names what it names trimmed. -/
theorem resolve?_trim (currencies : List Currency) (typed : String) :
    resolve? currencies (Text.trim typed) = resolve? currencies typed := by
  have hb : Text.isBlankText (Text.trim typed) = Text.isBlankText typed := by
    rw [Bool.eq_iff_iff, Text.isBlankText_iff, Text.isBlankText_iff, Text.trim_trim]
  simp [resolve?, hb, hasCode]

theorem Named.unique {currencies : List Currency} {typed : String} {c d : Currency}
    (hc : Named currencies typed c) (hd : Named currencies typed d) : c = d := by
  rw [← resolve?_eq_some_iff] at hc hd
  exact Option.some.inj (hc.symm.trans hd)

/-- Codes that match name the same entry. -/
theorem Named.congr {currencies : List Currency} {a b : String} {c : Currency}
    (h : Named currencies a c) (hab : Text.codeKey a = Text.codeKey b) : Named currencies b c := by
  obtain ⟨hne, before, after, heq, hc, hbefore⟩ := h
  have hsame : ∀ d, Text.sameCode d b = Text.sameCode d a :=
    fun d => (Text.sameCode_congr (Text.sameCode_iff.2 hab) d).symm
  refine ⟨fun hb => hne ?_, before, after, heq, (hsame _).trans hc, fun d hd => (hsame _).trans (hbefore d hd)⟩
  rw [← Text.codeKey_eq_nil, hab]
  exact Text.codeKey_eq_nil.2 hb

/-- The entry that a code names has the key of the code. -/
theorem Named.codeKey_eq {currencies : List Currency} {typed : String} {c : Currency}
    (h : Named currencies typed c) : Text.codeKey c.code = Text.codeKey typed := by
  obtain ⟨-, before, after, -, hc, -⟩ := h
  exact Text.sameCode_iff.1 hc

/-- Codes with one key are looked up alike. -/
theorem resolve?_congr (currencies : List Currency) {a b : String} (h : Text.codeKey a = Text.codeKey b) :
    resolve? currencies a = resolve? currencies b := by
  ext c
  rw [resolve?_eq_some_iff, resolve?_eq_some_iff]
  exact ⟨fun hc => hc.congr h, fun hc => hc.congr h.symm⟩

/-- The code under which an accepted proposal goes names the entry that it was accepted for, where
that entry's code is ASCII. -/
theorem Named.submitted {currencies : List Currency} {typed : String} {c : Currency}
    (h : Named currencies typed c) (ha : Text.IsAscii c.code) :
    Named currencies (Text.upper (Text.trim c.code)) c :=
  h.congr (h.codeKey_eq.symm.trans (Text.codeKey_upper_trim ha).symm)

theorem Named.mem {currencies : List Currency} {typed : String} {c : Currency}
    (h : Named currencies typed c) : c ∈ currencies := by
  obtain ⟨-, before, after, rfl, -⟩ := h
  simp

end Currency

end Tariff
