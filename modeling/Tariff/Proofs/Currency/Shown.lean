import Mathlib
import Tariff.Currency.Basic
import Tariff.Proofs.Currency.Named
import Tariff.Proofs.Decimal.Rounded
/-
  Tariff.Proofs.Currency.Shown — the number in a shown amount.

  An amount is shown at the places of its currency, or at two where the currency is not known, with the
  mark of the currency. What is shown there is the amount rounded to these places, halves away from zero,
  with every place written; nothing is shown just where this number needs more than 32 characters besides
  its sign, which at two places or fewer no amount does (`shown_amount_is_nearest`).
-/

namespace Tariff

namespace Currency

/-! ## Places -/

theorem places_le (c : Currency) : c.places ≤ 28 := Nat.min_le_right _ _

theorem placesOr_le (currency : Option Currency) : placesOr currency ≤ 28 := by
  cases currency with
  | none => exact (by decide : defaultPlaces ≤ 28)
  | some c => exact c.places_le

/-- The places of a looked-up currency are those of an entry, or two. -/
theorem placesOr_resolve?_le {currencies : List Currency} {n : Nat} (h : ∀ c ∈ currencies, c.places ≤ n)
    (hdefault : defaultPlaces ≤ n) (code : String) : placesOr (resolve? currencies code) ≤ n := by
  cases hr : resolve? currencies code with
  | none => exact hdefault
  | some c => exact h c (resolve?_eq_some_iff.1 hr).mem

/-! ## Amounts -/

theorem showAmount?_isSome_iff (amount : Decimal) (currency : Option Currency) :
    (showAmount? amount currency).isSome = true ↔ amount.HasRoom (placesOr currency) := by
  rw [showAmount?, Option.isSome_map, Decimal.fixed?_isSome_iff _ (placesOr_le currency)]

example : showAmount? ⟨true, 9995, 3, by decide, by decide⟩ none = some "-10.00" := by decide +kernel

end Currency

end Tariff
