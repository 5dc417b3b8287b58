import Mathlib
import Tariff.Proofs.Decimal.Numeral
import Tariff.Proofs.Proposal.Rules
/-
  Tariff.Proofs.Proposal.TypedAmount — what is accepted, and the number that was typed.

  An accepted amount was typed as a numeral, and is its value rounded to what an amount can be. So
  the number is kept wherever an amount can be that number (`accepted_amount_is_typed`). A number
  with more digits is rounded before its places are counted, so it may be accepted as another one
  (`accepted_amount_is_rounded`).
-/

namespace Tariff

theorem not_underscore_of_isAmountChar {c : Char} (h : isAmountChar c = true) : c ≠ '_' := by
  rintro rfl
  revert h
  decide

/-- An amount is read from a numeral, and is its value rounded. -/
theorem readAmount?_rounds {typed : String} {d : Decimal} (h : readAmount? typed = some d) :
    (∃ n : Numeral, n.text = Text.trimChars typed.toList) ∧
      ∀ n : Numeral, n.text = Text.trimChars typed.toList → d.Rounds n.value := by
  unfold readAmount? at h
  simp only at h
  split at h
  · rename_i hchars
    simp only [Bool.and_eq_true, List.all_eq_true] at hchars
    have hcs : '_' ∉ Text.trimChars typed.toList :=
      fun hx => not_underscore_of_isAmountChar (hchars.2 _ hx) rfl
    exact ⟨Decimal.exists_numeral hcs h, fun n hn => Decimal.rounds_of_readChars? (hn ▸ h)⟩
  · cases h

namespace Proposal

/-- An accepted amount was typed as a numeral. It is the number that was typed if an amount can be
that number, which then is a whole number of units of the currency; otherwise it is the nearest
number at its own scale. -/
theorem accepted_amount_is_typed (p : Proposal) (currencies : List Currency) (history : History) (now : Instant)
    (a : Acceptance) (h : p.validate currencies history now = .ok a) :
    (∃ n : Numeral, n.text = Text.trimChars p.amount.toList) ∧
      ∀ n : Numeral, n.text = Text.trimChars p.amount.toList →
        (a.amount.value = n.value ↔ ∃ d : Decimal, d.value = n.value) ∧
          ((∃ d : Decimal, d.value = n.value) → ∃ c, Currency.Named currencies p.currency c ∧
            ∃ k : ℤ, n.value * 10 ^ c.places = k) ∧
          |a.amount.value - n.value| * 10 ^ a.amount.scale ≤ 1 / 2 := by
  obtain ⟨c, amount, start, hk, rfl⟩ := validate_eq_ok_iff.1 h
  obtain ⟨hnumeral, hrounds⟩ := readAmount?_rounds hk.amount_typed
  refine ⟨hnumeral, fun n hn =>
    ⟨⟨fun heq => ⟨amount, heq⟩, (hrounds n hn).exact⟩, fun hx => ?_, (hrounds n hn).near⟩⟩
  have heq := (hrounds n hn).exact hx
  exact ⟨c, hk.named, heq ▸ hk.precise⟩

/-- Dollars and cents. -/
def dollars : List Currency := [⟨"USD", "US Dollar", some "$", some 2⟩]

/-- So it is with ten and a half dollars, typed with more zeros than an amount has places. -/
theorem accepted_amount_with_zeros_is_typed :
    let p : Proposal := ⟨"usd", " +10.500000000000000000000000000000000000 ", "2024-06-01"⟩
    ∃ a, p.validate dollars [] Instant.epoch = .ok a ∧ a.amount.value = 21 / 2 := by
  intro p
  have haccepted : (p.validate dollars [] Instant.epoch).toOption.isSome = true := by decide +kernel
  cases hv : p.validate dollars [] Instant.epoch with
  | error rs => simp [hv, Except.toOption] at haccepted
  | ok a =>
    let n : Numeral := ⟨some '+', ['1', '0'], some ('5' :: List.replicate 35 '0'), by simp,
      List.all_eq_true.1 (by decide +kernel), by decide⟩
    have htext : n.text = Text.trimChars p.amount.toList := by decide +kernel
    have hdigits : digitsAfter 0 (n.whole ++ n.places) = 105 * 10 ^ 35 := by decide +kernel
    have hplaces : n.places.length = 36 := by decide +kernel
    have hvalue : n.value = 21 / 2 := by
      rw [Numeral.value, if_neg (by decide), Numeral.magnitude, hdigits, hplaces]
      norm_num
    have hamount : ∃ d : Decimal, d.value = n.value :=
      ⟨⟨false, 105, 1, by decide, by decide⟩, by rw [hvalue]; norm_num [Decimal.value]⟩
    obtain ⟨hiff, -, -⟩ := (accepted_amount_is_typed p dollars [] Instant.epoch a hv).2 n htext
    exact ⟨a, rfl, (hiff.2 hamount).trans hvalue⟩

/-- A number that no amount can be, nor a whole number of cents, is accepted as another one. -/
theorem accepted_amount_is_rounded :
    let p : Proposal := ⟨"usd", "1.00000000000000000000000000001", "2024-06-01"⟩
    ∃ (a : Acceptance) (n : Numeral), p.validate dollars [] Instant.epoch = .ok a ∧
      n.text = Text.trimChars p.amount.toList ∧ a.amount.value ≠ n.value ∧ ¬ ∃ k : ℤ, n.value * 10 ^ 2 = k := by
  intro p
  have haccepted : (p.validate dollars [] Instant.epoch).toOption.map (·.amount) =
      some ⟨false, 10 ^ 28, 28, by decide, by decide⟩ := by decide +kernel
  cases hv : p.validate dollars [] Instant.epoch with
  | error rs => simp [hv, Except.toOption] at haccepted
  | ok a =>
    let n : Numeral := ⟨none, ['1'], some (List.replicate 28 '0' ++ ['1']), by simp,
      List.all_eq_true.1 (by decide +kernel), by decide⟩
    have hdigits : digitsAfter 0 (n.whole ++ n.places) = 10 ^ 29 + 1 := by decide +kernel
    have hplaces : n.places.length = 29 := by decide +kernel
    have hvalue : n.value = 1 + 1 / 10 ^ 29 := by
      rw [Numeral.value, if_neg (by decide), Numeral.magnitude, hdigits, hplaces]
      norm_num
    have hamount : a.amount.value = 1 := by
      simp only [hv, Except.toOption, Option.map_some, Option.some.injEq] at haccepted
      rw [haccepted]
      norm_num [Decimal.value]
    refine ⟨a, n, rfl, by decide +kernel, by rw [hamount, hvalue]; norm_num, fun hx => ?_⟩
    obtain ⟨k, hk⟩ := hx
    rw [hvalue] at hk
    have hlow : (100 : ℚ) < k := by rw [← hk]; norm_num
    have hhigh : (k : ℚ) < 101 := by rw [← hk]; norm_num
    have hlow' : 100 < k := by exact_mod_cast hlow
    have hhigh' : k < 101 := by exact_mod_cast hhigh
    omega

end Proposal

end Tariff
