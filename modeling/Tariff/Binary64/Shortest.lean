import Tariff.Number.Power
import Tariff.Binary64.Basic
/-
  Tariff.Binary64.Shortest — the fewest decimal digits that read back as the number.

  The reals that round to a number form an interval around it, whose ends belong to it when
  the mantissa is even. For one digit, two digits and so on, the number's two neighbours on
  that decimal grid are tried; the first grid with a neighbour inside the interval wins, and of
  two neighbours the nearer one, on a tie the even one.
-/

namespace Tariff.Binary64

/-- A ratio `n / d` of which the ends of an interval and the number are numerators. -/
structure Span where
  low : Nat
  value : Nat
  high : Nat
  denominator : Nat
  /-- The ends belong to the interval. -/
  closed : Bool
  deriving Repr

/-- The interval of reals that round to `m · 2^e`. -/
def span (m : Nat) (e : Int) : Span :=
  let lower := if m = normalBound ∧ minExponent < e then 4 * m - 1 else 4 * m - 2
  let scale := e - 2
  if 0 ≤ scale then
    let unit := twoPow scale.toNat
    ⟨lower * unit, 4 * m * unit, (4 * m + 2) * unit, 1, m % 2 == 0⟩
  else ⟨lower, 4 * m, 4 * m + 2, twoPow (-scale).toNat, m % 2 == 0⟩

/-- How many decimal digits a number has; none for zero. -/
def digitCount (n : Nat) : Nat := if n = 0 then 0 else (Nat.toDigits 10 n).length

/-- The exponent of the leading decimal digit of `n / d`. -/
def leadingExponent (n d : Nat) : Int :=
  if d ≤ n then (digitCount (n / d) : Int) - 1 else -(digitCount (d / n) : Int)

/-- The interval measured in units of 10^`p`. -/
def Span.inUnits (s : Span) (p : Int) : Span :=
  if 0 ≤ p then { s with denominator := s.denominator * tenPow p.toNat }
  else
    let k := tenPow (-p).toNat
    { s with low := s.low * k, value := s.value * k, high := s.high * k }

/-- Whether the integer `k` lies in the interval. -/
def Span.holds (s : Span) (k : Nat) : Bool :=
  let x := k * s.denominator
  if s.closed then s.low ≤ x && x ≤ s.high else s.low < x && x < s.high

/-- The integer in the interval next to its number, if there is one. -/
def Span.pick? (s : Span) : Option Nat :=
  let k := s.value / s.denominator
  let below := 2 * (s.value % s.denominator)
  match s.holds k, s.holds (k + 1) with
  | true, true =>
    if below < s.denominator then some k
    else if s.denominator < below then some (k + 1)
    else some (k + k % 2)
  | true, false => some k
  | false, true => some (k + 1)
  | false, false => none

/-- Decimal digits without trailing zeros, and the exponent of the last one. -/
def dropZeros : Nat → Nat → Int → Nat × Int
  | 0, k, p => (k, p)
  | fuel + 1, k, p => if k % 10 = 0 ∧ k ≠ 0 then dropZeros fuel (k / 10) (p + 1) else (k, p)

/-- The neighbour of `m · 2^e` with `n + 1` digits inside its interval: the digits and the
exponent of the last one. -/
def digitsAt? (m : Nat) (e : Int) (n : Nat) : Option (Nat × Int) :=
  let s := span m e
  let p := leadingExponent s.value s.denominator - n
  (s.inUnits p).pick?.map fun k => dropZeros 20 k p

/-- The digits and the exponent of the last digit for `m · 2^e`, with `m` not zero. -/
def shortest (m : Nat) (e : Int) : Nat × Int :=
  match (List.range 17).findSome? (digitsAt? m e) with
  | some found => found
  | none => (m, e)

end Tariff.Binary64
