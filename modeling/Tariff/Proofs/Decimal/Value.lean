import Mathlib
import Tariff.Decimal.Basic
/-
  Tariff.Proofs.Decimal.Value — the number that an amount is.

  Striking trailing zeros keeps the value (`value_normalized`), and stops only where the last
  digit counts (`strip_stops`). So the scale that is left is the least number of places at which
  the value is a whole number of units (`scale_normalized_le_iff`): the test of an amount's
  places is a statement about its value, not about how it was typed.
-/

namespace Tariff

namespace Decimal

/-- The number that an amount is. -/
def value (d : Decimal) : ℚ := (if d.negative then -1 else 1) * (d.mantissa / 10 ^ d.scale)

/-- The value is a whole number of units of the last of `places` places. -/
def FitsPlaces (d : Decimal) (places : Nat) : Prop := ∃ k : ℤ, d.value * 10 ^ places = k

theorem isPositive_iff (d : Decimal) : d.isPositive = true ↔ 0 < d.value := by
  have hpow : (0 : ℚ) < 10 ^ d.scale := by positivity
  rcases Nat.eq_zero_or_pos d.mantissa with hm | hm
  · simp [isPositive, value, hm]
  · have hq : (0 : ℚ) < d.mantissa / 10 ^ d.scale := div_pos (by exact_mod_cast hm) hpow
    cases hn : d.negative
    · simp only [isPositive, value, hn, Bool.false_eq_true, if_false, one_mul, hq, iff_true]
      simpa using hm.ne'
    · simp only [isPositive, value, hn, if_true, neg_one_mul, Left.neg_pos_iff]
      simpa using hq.le

/-! ## Trailing zeros -/

/-- Striking stops at the point, or at a digit that counts. -/
theorem strip_stops (m s : Nat) : (strip m s).2 = 0 ∨ (strip m s).1 % 10 ≠ 0 := by
  induction s generalizing m with
  | zero => exact Or.inl rfl
  | succ s ih =>
    unfold strip
    split
    · exact ih (m / 10)
    · rename_i h
      exact Or.inr h

theorem value_normalized (d : Decimal) : d.normalized.value = d.value := by
  have hv := strip_value d.mantissa d.scale
  have hle := (strip_le d.mantissa d.scale).2
  by_cases h0 : d.mantissa = 0
  · have h0' : (strip 0 d.scale).1 = 0 := Nat.le_zero.1 (strip_le 0 d.scale).1
    simp [value, normalized, h0, h0']
  · have hsign : (d.negative && d.mantissa != 0) = d.negative := by simp [h0]
    simp only [value, normalized, hsign]
    congr 1
    have hq : (d.mantissa : ℚ) =
        (strip d.mantissa d.scale).1 * 10 ^ (d.scale - (strip d.mantissa d.scale).2) := by
      exact_mod_cast hv.symm
    rw [hq, div_eq_div_iff (by positivity) (by positivity), mul_assoc, ← pow_add,
      Nat.sub_add_cancel hle]

/-- More places take whatever fewer places take. -/
theorem FitsPlaces.mono {d : Decimal} {n p : Nat} (h : d.FitsPlaces n) (hnp : n ≤ p) : d.FitsPlaces p := by
  obtain ⟨k, hk⟩ := h
  refine ⟨k * 10 ^ (p - n), ?_⟩
  push_cast
  rw [← hk, mul_assoc, ← pow_add, Nat.add_sub_cancel' hnp]

theorem fitsPlaces_scale (d : Decimal) : d.FitsPlaces d.scale := by
  refine ⟨(if d.negative then -1 else 1) * d.mantissa, ?_⟩
  rw [value, mul_assoc, div_mul_cancel₀ _ (by positivity)]
  push_cast
  rfl

/-- Fewer places than the scale that striking leaves do not hold the value. -/
theorem not_fitsPlaces_of_lt {d : Decimal} {places : Nat} (hp : places < d.scale)
    (hlast : d.mantissa % 10 ≠ 0) : ¬ d.FitsPlaces places := by
  intro hx
  obtain ⟨k, hk⟩ := hx
  have hsplit : (10 : ℚ) ^ d.scale = 10 ^ (d.scale - places) * 10 ^ places := by
    rw [← pow_add, Nat.sub_add_cancel hp.le]
  have habs : (d.mantissa : ℚ) = |(k : ℚ)| * 10 ^ (d.scale - places) := by
    rw [← hk, value, hsplit]
    have hsign : |(if d.negative then -1 else 1 : ℚ)| = 1 := by cases d.negative <;> simp
    rw [abs_mul, abs_mul, hsign, one_mul, abs_of_nonneg (by positivity), abs_of_pos (by positivity)]
    field_simp
  have hnat : d.mantissa = k.natAbs * 10 ^ (d.scale - places) := by
    have hk' : |(k : ℚ)| = (k.natAbs : ℚ) := by rw [Nat.cast_natAbs, Int.cast_abs]
    rw [hk'] at habs
    exact_mod_cast habs
  apply hlast
  obtain ⟨n, hn⟩ : ∃ n, d.scale - places = n + 1 := ⟨d.scale - places - 1, by omega⟩
  rw [hnat, hn, pow_succ, ← mul_assoc, Nat.mul_mod_left]

/-- The scale without trailing zeros is the least number of places that holds the value. -/
theorem scale_normalized_le_iff (d : Decimal) (places : Nat) :
    d.normalized.scale ≤ places ↔ d.FitsPlaces places := by
  have hfits : d.normalized.FitsPlaces places ↔ d.FitsPlaces places := by
    simp [FitsPlaces, value_normalized]
  rw [← hfits]
  constructor
  · exact fun h => (fitsPlaces_scale d.normalized).mono h
  · intro h
    by_contra hlt
    rcases strip_stops d.mantissa d.scale with h0 | hlast
    · have : d.normalized.scale = 0 := h0
      omega
    · exact not_fitsPlaces_of_lt (d := d.normalized) (by omega) hlast h

/-! ## Units -/

theorem value_unit {places : Nat} (h : places ≤ 28) : (unit places).value = 1 / 10 ^ places := by
  simp [unit, value, Nat.min_eq_left h]

/-- What fits some places is a multiple of the unit of the last of them. -/
theorem FitsPlaces.multiple {d : Decimal} {places : Nat} (h : d.FitsPlaces places) (hp : places ≤ 28) :
    ∃ k : ℤ, d.value = k * (unit places).value := by
  obtain ⟨k, hk⟩ := h
  refine ⟨k, ?_⟩
  rw [value_unit hp, ← hk, mul_one_div, mul_div_cancel_right₀ _ (by positivity)]

end Decimal

end Tariff
