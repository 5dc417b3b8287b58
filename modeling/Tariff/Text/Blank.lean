/-
  Tariff.Text.Blank — blank characters, trimming, and matching without regard to ASCII case.

  A blank is a character of Unicode's White_Space property. Texts typed by an operator are
  trimmed of blanks at both ends, and currency codes match when they are equal after trimming
  and folding of the ASCII letters.
-/

namespace Tariff.Text

/-- A character of the White_Space property. -/
def isBlank (c : Char) : Bool :=
  let n := c.toNat
  (9 ≤ n && n ≤ 13) || n == 0x20 || n == 0x85 || n == 0xa0 || n == 0x1680
    || (0x2000 ≤ n && n ≤ 0x200a) || n == 0x2028 || n == 0x2029 || n == 0x202f
    || n == 0x205f || n == 0x3000

/-- The text without its leading blanks. -/
def dropBlanks (cs : List Char) : List Char := cs.dropWhile isBlank

/-- The text without blanks at either end. -/
def trimChars (cs : List Char) : List Char := (dropBlanks (dropBlanks cs).reverse).reverse

/-- The text without blanks at either end. -/
def trim (s : String) : String := String.ofList (trimChars s.toList)

/-- A text of blanks only. -/
def isBlankText (s : String) : Bool := s.toList.all isBlank

/-- The lower case of an ASCII letter; other characters stay. -/
def foldAscii (c : Char) : Char :=
  if 'A' ≤ c ∧ c ≤ 'Z' then Char.ofNat (c.toNat + 32) else c

/-- What two codes share when they match: the trimmed text with its ASCII letters folded. -/
def codeKey (s : String) : List Char := (trimChars s.toList).map foldAscii

/-- Two codes match up to blanks around them and the case of ASCII letters. -/
def sameCode (a b : String) : Bool := codeKey a == codeKey b

end Tariff.Text
