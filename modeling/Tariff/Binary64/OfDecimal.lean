import Tariff.Number.Power
import Tariff.Binary64.Basic
import Tariff.Decimal.Basic
/-
  Tariff.Binary64.OfDecimal — the floating-point number that stands for a decimal amount in a
  request.

  The whole part and the fraction are converted apart and added; the sum is then rounded to the
  places of the amount. An amount with many digits need not be the nearest number's.
-/

namespace Tariff.Binary64

/-- Multiply the powers of ten of the bits of `n`, the lowest first, every product rounded;
`factor` is the power of the lowest bit. -/
def powerProduct : Nat → Binary64 → Nat → Binary64 → Binary64
  | 0, _, _, product => product
  | fuel + 1, factor, n, product =>
    let product := if n % 2 = 1 then mulMagnitude product factor else product
    if n / 2 = 0 then product
    else powerProduct fuel (mulMagnitude factor factor) (n / 2) product

/-- 10^`n` by repeated squaring. -/
def powerBySquares (n : Nat) : Binary64 := powerProduct (n + 1) (ofNat 10) n (ofNat 1)

/-- Round a number to `places` decimal places. -/
def roundTo (places : Nat) (x : Binary64) : Binary64 :=
  let unit := powerBySquares places
  divMagnitude (mulMagnitude x unit).roundHalfUp unit

/-- The magnitude of an amount of so many places. -/
def ofMantissa (mantissa places : Nat) : Binary64 :=
  if places = 0 then ofNat mantissa
  else
    let whole := ofNat (mantissa / tenPow places)
    let fraction := divMagnitude (ofNat (mantissa % tenPow places)) (ofNat (tenPow places))
    if fraction.isZero then whole else roundTo places (addMagnitude whole fraction)

/-- The number that stands for an amount. -/
def ofAmount (d : Decimal) : Binary64 :=
  let x := ofMantissa d.mantissa d.scale
  if d.negative then x.negate else x

end Tariff.Binary64
