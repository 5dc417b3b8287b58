import Tariff.Number.Power
import Tariff.Decimal.Basic
/-
  Tariff.Decimal.Reader — amounts read from text.

  A text is an optional sign and digits with at most one point and at least one digit;
  underscores may stand after the first digit. Digits are taken while the mantissa stays below
  2^96 and there are at most 28 after the point; the first digit after the point that does not
  fit rounds the rest half up, and what follows it must still be digits. Before the point, a
  digit that does not fit is an overflow and the text is refused.

  `readScientific?` reads such a number with a decimal exponent.
-/

namespace Tariff.Decimal

/-- What has been read of a number. -/
structure Reading where
  mantissa : Nat
  scale : Nat
  /-- The point has been read. -/
  pointed : Bool
  /-- A digit has been read. -/
  started : Bool
  /-- A digit has been rounded away: later digits do not count. -/
  settled : Bool
  deriving Repr, DecidableEq

namespace Reading

def empty : Reading := ⟨0, 0, false, false, false⟩

/-- One more in the last place. If the mantissa overflows, the last place is given up. -/
def roundUp? (r : Reading) : Option Reading :=
  if r.mantissa + 1 < capacity then some { r with mantissa := r.mantissa + 1, settled := true }
  else if r.scale = 0 then none
  else some { r with mantissa := (r.mantissa + 5) / 10, scale := r.scale - 1, settled := true }

/-- The digit that no longer fits settles the number. -/
def settle? (r : Reading) (digit : Nat) : Option Reading :=
  if 5 ≤ digit then r.roundUp? else some { r with settled := true }

/-- Take one digit. -/
def digit? (r : Reading) (digit : Nat) : Option Reading :=
  let next := r.mantissa * 10 + digit
  if r.settled then some r
  else if r.pointed then
    if r.scale < maxScale ∧ next < capacity then
      some { r with mantissa := next, scale := r.scale + 1, started := true }
    else r.settle? digit
  else if next < capacity then some { r with mantissa := next, started := true }
  else none

/-- Take one character. What follows a digit that was rounded away does not count, but it is still
looked at: a second point or another sign refuses the text there as it does before. -/
def step? (r : Reading) (c : Char) : Option Reading :=
  if c.isDigit then r.digit? (c.toNat - 48)
  else if c = '.' then
    if r.pointed then none else some { r with pointed := true }
  else if c = '_' then
    if r.started then some r else none
  else none

end Reading

/-- The sign in front of a number, and the rest. -/
def splitSign : List Char → Bool × List Char
  | '-' :: cs => (true, cs)
  | '+' :: cs => (false, cs)
  | cs => (false, cs)

/-- The amount that a text writes. -/
def readChars? (cs : List Char) : Option Decimal := do
  let (negative, body) := splitSign cs
  let r ← body.foldlM Reading.step? Reading.empty
  if r.started then ofParts? negative r.mantissa r.scale else none

/-- The amount that a text writes. -/
def read? (s : String) : Option Decimal := readChars? s.toList

/-! ## Exponents -/

/-- An unsigned 32-bit number in decimal digits; a plus sign may stand in front. -/
def readCount? (cs : List Char) : Option Nat :=
  let body := match cs with
    | '+' :: rest => rest
    | rest => rest
  if body.isEmpty || !body.all Char.isDigit then none
  else
    let n := body.foldl (fun n c => n * 10 + (c.toNat - 48)) 0
    if n < twoPow 32 then some n else none

/-- The amount with another scale and the same mantissa. -/
def rescaled? (d : Decimal) (scale : Nat) : Option Decimal :=
  ofParts? d.negative d.mantissa scale

/-- The amount times 10^`exponent`, for an exponent written without a minus sign. -/
def raised? (d : Decimal) (exponent : Nat) : Option Decimal :=
  if exponent ≤ d.scale then d.rescaled? (d.scale - exponent)
  else if exponent ≤ maxScale then ofParts? d.negative (d.mantissa * tenPow (exponent - d.scale)) 0
  else none

/-- The amount of a number with a decimal exponent after `e` or `E`. -/
def readScientific? (s : String) : Option Decimal :=
  let cs := s.toList
  let base := cs.takeWhile fun c => c != 'e' && c != 'E'
  match cs.dropWhile fun c => c != 'e' && c != 'E' with
  | [] => none
  | _ :: exponent => do
    let d ← readChars? base
    match exponent with
    | '-' :: count => do d.rescaled? (d.scale + (← readCount? count))
    | count => do d.raised? (← readCount? count)

/-- The amount of a number in either notation. -/
def readAny? (s : String) : Option Decimal := read? s <|> readScientific? s

end Tariff.Decimal
