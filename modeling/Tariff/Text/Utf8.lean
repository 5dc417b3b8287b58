/-
  Tariff.Text.Utf8 — characters as bytes.
-/

namespace Tariff.Text

/-- The bytes of a character. -/
def utf8Bytes (c : Char) : List Nat :=
  let n := c.toNat
  if n < 0x80 then [n]
  else if n < 0x800 then [0xc0 + n / 64, 0x80 + n % 64]
  else if n < 0x10000 then [0xe0 + n / 4096, 0x80 + n / 64 % 64, 0x80 + n % 64]
  else [0xf0 + n / 262144, 0x80 + n / 4096 % 64, 0x80 + n / 64 % 64, 0x80 + n % 64]

/-- The bytes of a text. -/
def utf8 (cs : List Char) : List Nat := cs.flatMap utf8Bytes

/-- How many bytes follow the first byte of a character, and the bits that it gives. -/
def leadByte? (b : Nat) : Option (Nat × Nat) :=
  if b < 0x80 then some (0, b)
  else if 0xc2 ≤ b ∧ b < 0xe0 then some (1, b % 32)
  else if 0xe0 ≤ b ∧ b < 0xf0 then some (2, b % 16)
  else if 0xf0 ≤ b ∧ b < 0xf5 then some (3, b % 8)
  else none

/-- The character that a list of bytes is the encoding of. -/
def charOfBytes? (bytes : List Nat) : Option Char :=
  match bytes with
  | [] => none
  | b :: more =>
    (leadByte? b).bind fun (count, bits) =>
      let n := more.foldl (fun n b => n * 64 + b % 64) bits
      if more.length = count ∧ n.isValidChar ∧ utf8Bytes (Char.ofNat n) = bytes then
        some (Char.ofNat n)
      else none

/-- The text of bytes, if they are the encoding of one. -/
def ofUtf8? : Nat → List Nat → Option (List Char)
  | _, [] => some []
  | 0, _ => none
  | fuel + 1, b :: bytes =>
    (leadByte? b).bind fun (count, _) =>
      (charOfBytes? (b :: bytes.take count)).bind fun c =>
        (ofUtf8? fuel (bytes.drop count)).map (c :: ·)

/-- The text of bytes, if they are the encoding of one. -/
def decodeUtf8? (bytes : List Nat) : Option (List Char) := ofUtf8? bytes.length bytes

end Tariff.Text
