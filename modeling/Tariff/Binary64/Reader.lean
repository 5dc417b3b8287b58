import Tariff.Number.Power
import Tariff.Binary64.Basic
/-
  Tariff.Binary64.Reader — floating-point numbers read from decimal text.

  `ofDecimal` gives the number nearest to digits · 10^exponent. `ofScaled?` works as a reader
  of interchange numbers does: the digits as a number, then one rounded product or quotient by
  a power of ten; it may be a unit off in the last place, and refuses a number that is too
  large. `readFloat?` reads a number as it is typed in a configuration text.
-/

namespace Tariff.Binary64

/-- Beyond these exponents every number is zero or infinite, whatever its digits. -/
def exponentReach : Int := 400

/-- The number nearest to `k · 10^p`, where `k` has `len` digits. -/
def ofDecimal (negative : Bool) (k : Nat) (len : Nat) (p : Int) : Binary64 :=
  if k = 0 then .finite negative 0 0
  else if exponentReach < p + len then .infinite negative
  else if p + len < -exponentReach then .finite negative 0 0
  else if 0 ≤ p then ofRatio negative (k * tenPow p.toNat) 1
  else ofRatio negative k (tenPow (-p).toNat)

/-- The number nearest to 10^`n`. -/
def powerOfTen (n : Nat) : Binary64 := ofNat (tenPow n)

/-- The largest power of ten that is finite. -/
def maxPower : Nat := 308

/-- Divide by the largest power of ten until the exponent is in reach, then by the rest. -/
def divideDown : Nat → Binary64 → Nat → Binary64
  | 0, x, _ => x
  | fuel + 1, x, n =>
    if x.isZero then x
    else if n ≤ maxPower then divMagnitude x (powerOfTen n)
    else divideDown fuel (divMagnitude x (powerOfTen maxPower)) (n - maxPower)

/-- The digits `k` scaled by 10^`p`, nothing when the result is infinite. -/
def ofScaled? (k : Nat) (p : Int) : Option Binary64 :=
  let x := ofNat k
  if 0 ≤ p then
    if x.isZero then some x
    else if maxPower < p.toNat then none
    else
      let y := mulMagnitude x (powerOfTen p.toNat)
      if y.isFinite then some y else none
  else some (divideDown 4 x (-p).toNat)

/-! ## Typed numbers -/

def digitsValue (cs : List Char) : Nat := cs.foldl (fun n c => n * 10 + (c.toNat - 48)) 0

/-- The exponent after `e` or `E`, if one is well written; no exponent counts as zero. -/
def readExponent? : List Char → Option Int
  | [] => some 0
  | c :: cs =>
    if c = 'e' ∨ c = 'E' then
      let (negative, ds) := match cs with
        | '-' :: ds => (true, ds)
        | '+' :: ds => (false, ds)
        | ds => (false, ds)
      if ds.isEmpty || !ds.all Char.isDigit then none
      else
        let n : Int := digitsValue ds
        some (if negative then -n else n)
    else none

/-- A number without sign: digits with at most one point, at least one digit, then perhaps an
exponent. -/
def readMagnitude? (negative : Bool) (cs : List Char) : Option Binary64 :=
  let whole := cs.takeWhile Char.isDigit
  let afterWhole := cs.dropWhile Char.isDigit
  let (fraction, rest) := match afterWhole with
    | '.' :: more => (more.takeWhile Char.isDigit, more.dropWhile Char.isDigit)
    | more => ([], more)
  if whole.isEmpty && fraction.isEmpty then none
  else
    (readExponent? rest).map fun x =>
      let ds := (whole ++ fraction).dropWhile (· == '0')
      ofDecimal negative (digitsValue ds) ds.length (x - fraction.length)

/-- A finite number with an optional sign. -/
def readFloat? (cs : List Char) : Option Binary64 :=
  let read := match cs with
    | '-' :: ds => readMagnitude? true ds
    | '+' :: ds => readMagnitude? false ds
    | ds => readMagnitude? false ds
  read.filter Binary64.isFinite

end Tariff.Binary64
