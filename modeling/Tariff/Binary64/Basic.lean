import Tariff.Number.Power
/-
  Tariff.Binary64.Basic — binary floating-point numbers of 64 bits, with exact arithmetic.

  A finite number is a sign, a mantissa below 2^53 and an exponent of at least -1074; its value
  is mantissa · 2^exponent. A ratio of integers is rounded to the nearest such number, ties to
  an even mantissa, and becomes infinite above the largest one. Every operation is the exact
  result on ratios, rounded once.
-/

namespace Tariff

/-- A 64-bit floating-point number. -/
inductive Binary64 where
  | finite (negative : Bool) (mantissa : Nat) (exponent : Int)
  | infinite (negative : Bool)
  | nan
  deriving DecidableEq, Repr

namespace Binary64

/-- Mantissas are below this. -/
def mantissaBound : Nat := twoPow 53

/-- A normal mantissa is at least this. -/
def normalBound : Nat := twoPow 52

def minExponent : Int := -1074
def maxExponent : Int := 971

/-- `n / d` to the nearest integer, ties to the even one. -/
def roundEven (n d : Nat) : Nat :=
  let q := n / d
  let r := n % d
  if 2 * r < d then q
  else if d < 2 * r then q + 1
  else q + q % 2

/-- `n / d` divided by 2^`e`, as a ratio. -/
def scaleRatio (n d : Nat) (e : Int) : Nat × Nat :=
  if 0 ≤ e then (n, d * twoPow e.toNat) else (n * twoPow (-e).toNat, d)

/-- The exponent at which `n / d` has a 53-bit mantissa, or the least exponent there is. -/
def exponentOf (n d : Nat) : Int :=
  let guess : Int := (Nat.log2 n : Int) - (Nat.log2 d : Int) - 52
  let s := scaleRatio n d guess
  let e := if s.1 / s.2 < normalBound then guess - 1 else guess
  max e minExponent

/-- The number nearest to `n / d`. -/
def ofRatio (negative : Bool) (n d : Nat) : Binary64 :=
  if n = 0 then .finite negative 0 0
  else
    let e := exponentOf n d
    let s := scaleRatio n d e
    let m := roundEven s.1 s.2
    let carried := m = mantissaBound
    let m' := if carried then normalBound else m
    let e' := if carried then e + 1 else e
    if m' = 0 then .finite negative 0 0
    else if maxExponent < e' then .infinite negative
    else .finite negative m' e'

/-- The magnitude of a finite number as a ratio. -/
def magnitude (m : Nat) (e : Int) : Nat × Nat :=
  if 0 ≤ e then (m * twoPow e.toNat, 1) else (m, twoPow (-e).toNat)

def ofNat (n : Nat) : Binary64 := ofRatio false n 1

def ofInt (i : Int) : Binary64 := ofRatio (decide (i < 0)) i.natAbs 1

def isFinite : Binary64 → Bool
  | .finite .. => true
  | _ => false

def isZero : Binary64 → Bool
  | .finite _ m _ => m == 0
  | _ => false

/-- The number with the other sign. -/
def negate : Binary64 → Binary64
  | .finite s m e => .finite (!s) m e
  | .infinite s => .infinite (!s)
  | .nan => .nan

/-! ## Arithmetic on magnitudes

Sums, products and quotients of finite numbers without sign; the amounts that are converted
here never leave the finite range. -/

def addMagnitude : Binary64 → Binary64 → Binary64
  | .finite _ m e, .finite _ m' e' =>
    let a := magnitude m e
    let b := magnitude m' e'
    ofRatio false (a.1 * b.2 + b.1 * a.2) (a.2 * b.2)
  | _, _ => .nan

def mulMagnitude : Binary64 → Binary64 → Binary64
  | .finite _ m e, .finite _ m' e' =>
    let a := magnitude m e
    let b := magnitude m' e'
    ofRatio false (a.1 * b.1) (a.2 * b.2)
  | _, _ => .nan

def divMagnitude : Binary64 → Binary64 → Binary64
  | .finite _ m e, .finite _ m' e' =>
    let a := magnitude m e
    let b := magnitude m' e'
    if b.1 = 0 then .nan else ofRatio false (a.1 * b.2) (a.2 * b.1)
  | _, _ => .nan

/-- The nearest integer, halves up. -/
def roundHalfUp : Binary64 → Binary64
  | .finite s m e =>
    let a := magnitude m e
    ofRatio s ((2 * a.1 + a.2) / (2 * a.2)) 1
  | x => x

end Binary64

end Tariff
