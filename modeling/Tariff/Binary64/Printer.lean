import Tariff.Binary64.Shortest
import Tariff.Decimal.Printer
/-
  Tariff.Binary64.Printer — floating-point numbers as text.

  Three styles share the shortest digits: `positional` never writes an exponent, `pointed` is
  positional with at least one place, and `compact` writes numbers from 10^-5 up to 10^16
  positionally with at least one place and all others with an exponent.
-/

namespace Tariff.Binary64

open Tariff.Decimal (digits padLeft)

/-- The digits `k · 10^p` written without an exponent. -/
def positionalDigits (k : Nat) (p : Int) : List Char :=
  let ds := digits k
  if 0 ≤ p then ds ++ List.replicate p.toNat '0'
  else
    let places := (-p).toNat
    let padded := padLeft (places + 1) ds
    let whole := padded.take (padded.length - places)
    whole ++ '.' :: padded.drop (padded.length - places)

def minus (negative : Bool) : List Char := if negative then ['-'] else []

/-- Plain decimal notation; integers have no point. -/
def positional : Binary64 → String
  | .nan => "NaN"
  | .infinite s => String.ofList (minus s ++ "inf".toList)
  | .finite s m e =>
    if m = 0 then String.ofList (minus s ++ ['0'])
    else
      let (k, p) := shortest m e
      String.ofList (minus s ++ positionalDigits k p)

/-- A number without a point gets one place. -/
def withPoint (cs : List Char) : List Char :=
  if cs.contains '.' then cs else cs ++ ['.', '0']

/-- Plain decimal notation with at least one place. -/
def pointed (x : Binary64) : String :=
  if x.isFinite then String.ofList (withPoint x.positional.toList) else x.positional

/-- Digits with a point after the first one. -/
def leadingDigits : List Char → List Char
  | [] => []
  | [d] => [d]
  | d :: ds => d :: '.' :: ds

/-- An exponent with its sign. -/
def exponentText (x : Int) : List Char :=
  'e' :: (if x < 0 then '-' else '+') :: digits x.natAbs

/-- Exponents of the leading digit that are written positionally. -/
def isModerate (x : Int) : Bool := -5 ≤ x && x ≤ 15

/-- Positional notation for moderate numbers, an exponent for the others. -/
def compact : Binary64 → String
  | .nan => "null"
  | .infinite _ => "null"
  | .finite s m e =>
    if m = 0 then String.ofList (minus s ++ "0.0".toList)
    else
      let (k, p) := shortest m e
      let ds := digits k
      let lead : Int := p + ds.length - 1
      if isModerate lead then String.ofList (minus s ++ withPoint (positionalDigits k p))
      else String.ofList (minus s ++ leadingDigits ds ++ exponentText lead)

end Tariff.Binary64
