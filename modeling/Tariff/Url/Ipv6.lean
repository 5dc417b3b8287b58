import Tariff.Text.Hex
/-
  Tariff.Url.Ipv6 — addresses of eight pairs of bytes.

  A pair is up to four hexadecimal digits, and pairs are divided by colons. The last two pairs
  may be written as four bytes in decimal, and two colons stand for one or more pairs that are
  zero. In normal form the digits are in lower case without leading zeros, and the first of the
  longest runs of two or more zeros is written as two colons.
-/

namespace Tariff.Url

/-- The value of digits of a base. -/
def digitsOf? (base : Nat) (cs : List Char) : Option Nat := do
  let ds ← cs.mapM fun c => (Text.hexValue? c).filter (· < base)
  some (ds.foldl (fun n d => n * base + d) 0)

/-- An address by its pairs of bytes. -/
structure Ipv6 where
  pairs : List Nat
  deriving DecidableEq, Repr

namespace Ipv6

/-- The pairs of an address. -/
def pairCount : Nat := 8

/-! ## Reading -/

/-- A pair of bytes. -/
def pair? (cs : List Char) : Option Nat :=
  if cs.isEmpty || 4 < cs.length then none else digitsOf? 16 cs

/-- A byte in decimal, without zeros in front. -/
def byte? (cs : List Char) : Option Nat :=
  if cs.isEmpty || (1 < cs.length && cs.head? == some '0') then none
  else (digitsOf? 10 cs).filter (· < 256)

/-- Four bytes as two pairs. -/
def ofBytes? (cs : List Char) : Option (List Nat) := do
  match ← (cs.splitOn '.').mapM byte? with
  | [a, b, c, d] => some [a * 256 + b, c * 256 + d]
  | _ => none

/-- The pairs that texts write; where they are the last of an address, four bytes may end
them. -/
def pairs? (areLast : Bool) : List (List Char) → Option (List Nat)
  | [] => some []
  | [cs] => if areLast && cs.contains '.' then ofBytes? cs else (pair? cs).map ([·])
  | cs :: more => do some ((← pair? cs) :: (← pairs? areLast more))

/-- The pairs on one side of two colons. -/
def side? (areLast : Bool) (cs : List Char) : Option (List Nat) :=
  if cs.isEmpty then some [] else pairs? areLast (cs.splitOn ':')

/-- What stands before and behind the first two colons in a row. -/
def splitGap? : List Char → Option (List Char × List Char)
  | [] => none
  | ':' :: ':' :: cs => some ([], cs)
  | c :: cs => (splitGap? cs).map fun (front, back) => (c :: front, back)

/-- The address that a text writes. -/
def read? (cs : List Char) : Option Ipv6 :=
  match splitGap? cs with
  | none => do
    let pairs ← pairs? true (cs.splitOn ':')
    if pairs.length = pairCount then some ⟨pairs⟩ else none
  | some (front, back) => do
    let front ← side? false front
    let back ← side? true back
    let missing := pairCount - (front.length + back.length)
    if missing = 0 then none else some ⟨front ++ List.replicate missing 0 ++ back⟩

/-! ## Normal form -/

/-- Where the first of the longest runs of zeros starts, and how long it is. -/
def longestGap (pairs : List Nat) : Nat × Nat :=
  (List.range pairs.length).foldl
    (fun best start =>
      let length := ((pairs.drop start).takeWhile (· == 0)).length
      if best.2 < length then (start, length) else best)
    (0, 0)

def joined (pairs : List Nat) : String :=
  String.intercalate ":" (pairs.map fun n => String.ofList (Nat.toDigits 16 n))

/-- The normal form of an address. -/
def text (a : Ipv6) : String :=
  let (start, length) := longestGap a.pairs
  if length < 2 then joined a.pairs
  else joined (a.pairs.take start) ++ "::" ++ joined (a.pairs.drop (start + length))

end Ipv6

end Tariff.Url
