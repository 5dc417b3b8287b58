/-
  Tariff.Number.Power — powers of two and of ten.

  Bounds are powers of two, places of decimal numbers powers of ten.
-/

namespace Tariff

/-- Two to the power of `n`. -/
def twoPow (n : Nat) : Nat := Nat.pow 2 n

/-- Ten to the power of `n`. -/
def tenPow (n : Nat) : Nat := Nat.pow 10 n

theorem tenPow_succ (n : Nat) : tenPow (n + 1) = tenPow n * 10 := rfl

end Tariff
