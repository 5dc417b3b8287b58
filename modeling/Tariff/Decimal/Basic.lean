import Tariff.Number.Power
/-
  Tariff.Decimal.Basic — decimal amounts.

  An amount is a sign, an integer mantissa below 2^96 and a scale of at most 28: its value is
  the mantissa divided by 10^scale. The scale is part of the amount (10 and 10.00 are different
  amounts of one value) and is kept when an amount is written and read again.
-/

namespace Tariff

/-- A decimal amount with its scale. -/
structure Decimal where
  negative : Bool
  mantissa : Nat
  scale : Nat
  mantissa_lt : mantissa < twoPow 96
  scale_le : scale ≤ 28
  deriving DecidableEq, Repr

namespace Decimal

/-- Mantissas are below this. -/
def capacity : Nat := twoPow 96

/-- The largest scale. -/
def maxScale : Nat := 28

/-- The amount of a sign, a mantissa and a scale, if they are in range. Zero has no sign. -/
def ofParts? (negative : Bool) (mantissa scale : Nat) : Option Decimal :=
  if hm : mantissa < twoPow 96 then
    if hs : scale ≤ 28 then some ⟨negative && mantissa != 0, mantissa, scale, hm, hs⟩ else none
  else none

def zero : Decimal := ⟨false, 0, 0, by decide, by decide⟩

instance : Inhabited Decimal := ⟨zero⟩

/-- The amount of an integer, if its magnitude fits. -/
def ofInt? (i : Int) : Option Decimal := ofParts? (decide (i < 0)) i.natAbs 0

/-- One unit in the last of `places` places: 0.01 for two. -/
def unit (places : Nat) : Decimal :=
  ⟨false, 1, min places 28, by decide, Nat.min_le_right _ _⟩

/-- Greater than zero. -/
def isPositive (d : Decimal) : Bool := !d.negative && d.mantissa != 0

/-! ## Trailing zeros -/

/-- The mantissa and scale left when trailing zeros after the point are struck. -/
def strip : Nat → Nat → Nat × Nat
  | m, 0 => (m, 0)
  | m, s + 1 => if m % 10 = 0 then strip (m / 10) s else (m, s + 1)

theorem strip_le (m s : Nat) : (strip m s).1 ≤ m ∧ (strip m s).2 ≤ s := by
  induction s generalizing m with
  | zero => simp [strip]
  | succ s ih =>
    unfold strip
    split
    · have := ih (m / 10)
      have := Nat.div_le_self m 10
      omega
    · simp

/-- Striking zeros keeps the value: the mantissa times the power struck is the old one. -/
theorem strip_value (m s : Nat) :
    (strip m s).1 * tenPow (s - (strip m s).2) = m := by
  induction s generalizing m with
  | zero => simp [strip, tenPow]
  | succ s ih =>
    unfold strip
    split
    · next h =>
      have hle := (strip_le (m / 10) s).2
      have := ih (m / 10)
      rw [show s + 1 - (strip (m / 10) s).2 = (s - (strip (m / 10) s).2) + 1 by omega,
        tenPow_succ, ← Nat.mul_assoc, this]
      omega
    · simp [tenPow]

/-- The amount without trailing zeros after the point; zero becomes plain zero. -/
def normalized (d : Decimal) : Decimal :=
  ⟨d.negative && d.mantissa != 0, (strip d.mantissa d.scale).1, (strip d.mantissa d.scale).2,
    Nat.lt_of_le_of_lt (strip_le _ _).1 d.mantissa_lt, Nat.le_trans (strip_le _ _).2 d.scale_le⟩

end Decimal

end Tariff
