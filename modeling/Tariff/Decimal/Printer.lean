import Tariff.Number.Power
import Tariff.Decimal.Basic
/-
  Tariff.Decimal.Printer — amounts as text.

  `plain` writes every digit the scale asks for. `fixed?` rounds to a number of places, halves
  away from zero, and writes exactly that many; it has room for 32 characters besides the sign
  and gives nothing when the number needs more.
-/

namespace Tariff.Decimal

/-- The decimal digits of a number. -/
def digits (n : Nat) : List Char := Nat.toDigits 10 n

/-- Zeros in front, up to `n` characters. -/
def padLeft (n : Nat) (cs : List Char) : List Char :=
  List.replicate (n - cs.length) '0' ++ cs

/-- The digits of `mantissa / 10^scale`: whole part, and `scale` digits after the point. -/
def wholeDigits (mantissa scale : Nat) : List Char := digits (mantissa / tenPow scale)

def fractionDigits (mantissa scale : Nat) : List Char :=
  padLeft scale (digits (mantissa % tenPow scale))

/-- Digits with a point where there are places after it. -/
def pointed (whole fraction : List Char) : List Char :=
  if fraction.isEmpty then whole else whole ++ '.' :: fraction

/-- The magnitude written with exactly `scale` places. -/
def magnitudeText (mantissa scale : Nat) : List Char :=
  if scale = 0 then wholeDigits mantissa 0
  else pointed (wholeDigits mantissa scale) (fractionDigits mantissa scale)

/-- A minus sign for amounts below zero. -/
def signText (negative : Bool) (mantissa : Nat) : List Char :=
  if negative && mantissa != 0 then ['-'] else []

/-- The amount as text, with as many places as its scale. -/
def plain (d : Decimal) : String :=
  String.ofList (signText d.negative d.mantissa ++ magnitudeText d.mantissa d.scale)

/-! ## Rounding -/

/-- `m / unit` to the nearest integer, halves up. -/
def roundQuotient (m unit : Nat) : Nat := (m + unit / 2) / unit

/-- The mantissa at `places` places of the nearest multiple of 10^-places, halves away from
zero; where the amount has fewer places, zeros are appended. -/
def mantissaAt (d : Decimal) (places : Nat) : Nat :=
  if d.scale ≤ places then d.mantissa * tenPow (places - d.scale)
  else roundQuotient d.mantissa (tenPow (d.scale - places))

/-- The characters that a number may take, sign apart. -/
def roomForNumber : Nat := 32

/-- The amount rounded to `places` places and written with exactly that many, if there is room
for the number. -/
def fixed? (d : Decimal) (places : Nat) : Option String :=
  let m := d.mantissaAt places
  let text := magnitudeText m places
  if text.length ≤ roomForNumber then some (String.ofList (signText d.negative m ++ text)) else none

end Tariff.Decimal
