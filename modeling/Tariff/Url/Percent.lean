import Tariff.Text.Hex
import Tariff.Text.Utf8
/-
  Tariff.Url.Percent — characters that stand in an address as escaped bytes.

  A part of an address has a set of characters that are written as the bytes of their encoding,
  each as a percent sign and two hexadecimal digits in upper case. A percent sign itself stays.
-/

namespace Tariff.Url

open Text (hexValue? hexDigitUpper)

/-- An escaped byte. -/
def escapedByte (b : Nat) : List Char := ['%', hexDigitUpper (b / 16), hexDigitUpper (b % 16)]

/-- Escape the characters that satisfy `p`. -/
def escape (p : Char → Bool) (cs : List Char) : List Char :=
  cs.flatMap fun c => if p c then (Text.utf8Bytes c).flatMap escapedByte else [c]

/-- Controls and what is not ASCII. -/
def isForeign (c : Char) : Bool := c.toNat < 0x20 || 0x7e < c.toNat

/-- What is escaped in a fragment. -/
def escapedInFragment (c : Char) : Bool := isForeign c || [' ', '\x22', '<', '>', '`'].contains c

/-- What is escaped in a query. -/
def escapedInQuery (c : Char) : Bool :=
  isForeign c || [' ', '\x22', '#', '<', '>', '\''].contains c

/-- What is escaped in a path. -/
def escapedInPath (c : Char) : Bool :=
  isForeign c || [' ', '\x22', '#', '<', '>', '?', '^', '`', '\x7b', '\x7d'].contains c

/-- The bytes of a part, escapes resolved; a percent sign without two digits stands for
itself. -/
def unescapedBytes : List Char → List Nat
  | '%' :: a :: b :: cs =>
    match hexValue? a, hexValue? b with
    | some a, some b => (a * 16 + b) :: unescapedBytes cs
    | _, _ => 0x25 :: unescapedBytes (a :: b :: cs)
  | c :: cs => Text.utf8Bytes c ++ unescapedBytes cs
  | [] => []
termination_by cs => cs.length

/-- The text of a part, escapes resolved, if it is a text. -/
def unescape? (cs : List Char) : Option (List Char) := Text.decodeUtf8? (unescapedBytes cs)

end Tariff.Url
