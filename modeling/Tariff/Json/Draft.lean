import Tariff.Number.Power
import Tariff.Json.Value
import Tariff.Binary64.Reader
/-
  Tariff.Json.Draft — JSON text as far as it can be read.

  Reading never fails: where the text stops being JSON, the draft holds a `broken` leaf and the
  arrays and objects around it stay open. A decoder that walks a draft in order therefore meets a
  wrong value before a mistake in the text that stands behind it. Two mistakes matter only to a
  reader of the value itself and are kept on it: a number beyond the floating-point range, and an
  unpaired surrogate escape in a string.

  `value?` is the value of a complete draft, at most 127 levels deep.
-/

namespace Tariff

/-- What has been read of a JSON text. -/
inductive JsonDraft where
  | null
  | bool (value : Bool)
  /-- A number, if it is in range. -/
  | number (value : Option JsonNumber)
  /-- A string, if its escapes pair up. -/
  | string (value : Option String)
  /-- An array, and whether its closing bracket was read. -/
  | array (items : List JsonDraft) (closed : Bool)
  /-- An object, and whether its closing brace was read. A name may have a bad escape. -/
  | object (members : List (Option String × JsonDraft)) (closed : Bool)
  /-- Not JSON from here on. -/
  | broken
  deriving Repr

namespace JsonDraft

open Text (hexValue?)

/-! ## Lexical parts -/

def isSpace (c : Char) : Bool := c == ' ' || c == '\n' || c == '\t' || c == '\r'

def skipSpace (cs : List Char) : List Char := cs.dropWhile isSpace

/-- The text behind a literal. -/
def afterLiteral? : List Char → List Char → Option (List Char)
  | [], cs => some cs
  | _ :: _, [] => none
  | l :: ls, c :: cs => if l = c then afterLiteral? ls cs else none

/-- Four hexadecimal digits. -/
def hexQuad? : List Char → Option (Nat × List Char)
  | a :: b :: c :: d :: cs => do
    let a ← hexValue? a
    let b ← hexValue? b
    let c ← hexValue? c
    let d ← hexValue? d
    some (((a * 16 + b) * 16 + c) * 16 + d, cs)
  | _ => none

def shortEscape? (c : Char) : Option Char :=
  if c = '\x22' then some '\x22'
  else if c = '\\' then some '\\'
  else if c = '/' then some '/'
  else if c = 'b' then some '\x08'
  else if c = 'f' then some '\x0c'
  else if c = 'n' then some '\n'
  else if c = 'r' then some '\r'
  else if c = 't' then some '\t'
  else none

def isLeadSurrogate (n : Nat) : Bool := 0xd800 ≤ n && n ≤ 0xdbff
def isTailSurrogate (n : Nat) : Bool := 0xdc00 ≤ n && n ≤ 0xdfff

/-- A unit of a string: a character, or half of a surrogate pair. -/
inductive StringUnit where
  | char (c : Char)
  | half (n : Nat)
  deriving Repr, DecidableEq

/-- The units of a string up to its closing quote, and the text after it. -/
def stringUnits? : Nat → List Char → Option (List StringUnit × List Char)
  | 0, _ => none
  | _ + 1, [] => none
  | fuel + 1, c :: cs =>
    if c = '\x22' then some ([], cs)
    else if c.toNat < 0x20 then none
    else if c = '\\' then
      match cs with
      | [] => none
      | 'u' :: cs => do
        let (n, cs) ← hexQuad? cs
        let (units, rest) ← stringUnits? fuel cs
        let unit := if isLeadSurrogate n || isTailSurrogate n then .half n else .char (Char.ofNat n)
        some (unit :: units, rest)
      | e :: cs => do
        let c ← shortEscape? e
        let (units, rest) ← stringUnits? fuel cs
        some (.char c :: units, rest)
    else do
      let (units, rest) ← stringUnits? fuel cs
      some (.char c :: units, rest)

/-- The characters of string units: halves must form pairs. -/
def pairedChars? : List StringUnit → Option (List Char)
  | [] => some []
  | .char c :: us => (pairedChars? us).map (c :: ·)
  | .half a :: .half b :: us =>
    if isLeadSurrogate a && isTailSurrogate b then
      (pairedChars? us).map (Char.ofNat (0x10000 + (a - 0xd800) * 0x400 + (b - 0xdc00)) :: ·)
    else none
  | .half _ :: _ => none

/-- A string behind its opening quote: its text, if the escapes pair up, and what follows. -/
def stringBody? (cs : List Char) : Option (Option String × List Char) := do
  let (units, rest) ← stringUnits? (cs.length + 1) cs
  some ((pairedChars? units).map String.ofList, rest)

/-! ## Numbers -/

/-- The digits of a number taken while they fit 64 bits: the significand, and how many digits
were left out. -/
def significand (bound : Nat) : Nat → List Char → Nat × List Char
  | n, [] => (n, [])
  | n, d :: ds =>
    let next := n * 10 + (d.toNat - 48)
    if next < bound then significand bound next ds else (n, d :: ds)

def wordBound : Nat := twoPow 64

/-- The number of a whole part, a fraction and an exponent, if it is in range. An exponent of
more than 31 bits leaves nothing but zero or a number out of range. -/
def numberOf? (negative : Bool) (whole fraction : List Char) (exponent : Option Int) :
    Option JsonNumber :=
  let sign (x : Binary64) : JsonNumber := .float (if negative then x.negate else x)
  let (n, unread) := significand wordBound 0 whole
  if fraction.isEmpty && exponent.isNone && unread.isEmpty then
    if !negative then some (.integer n)
    else if n = 0 ∨ twoPow 63 < n then some (sign (Binary64.ofNat n))
    else some (.integer (-(n : Int)))
  else
    let (m, left) := significand wordBound n fraction
    let shift : Int := (unread.length : Int) - ((fraction.length : Int) - left.length)
    let x := exponent.getD 0
    if twoPow 31 ≤ x.natAbs then
      if m = 0 ∨ x < 0 then some (sign (Binary64.ofNat 0)) else none
    else (Binary64.ofScaled? m (shift + x)).map sign

/-- The whole part of a number: no digit may follow a leading zero. -/
def wholePart? (cs : List Char) : Option (List Char × List Char) :=
  match cs with
  | '0' :: rest =>
    match rest with
    | d :: _ => if d.isDigit then none else some (['0'], rest)
    | [] => some (['0'], [])
  | _ =>
    let ds := cs.takeWhile Char.isDigit
    if ds.isEmpty then none else some (ds, cs.dropWhile Char.isDigit)

/-- The fraction of a number, empty if there is no point. -/
def fractionPart? : List Char → Option (List Char × List Char)
  | '.' :: cs =>
    let ds := cs.takeWhile Char.isDigit
    if ds.isEmpty then none else some (ds, cs.dropWhile Char.isDigit)
  | cs => some ([], cs)

/-- The digits of an exponent with its sign. -/
def exponentDigits? (negative : Bool) (cs : List Char) : Option (Option Int × List Char) :=
  let ds := cs.takeWhile Char.isDigit
  if ds.isEmpty then none
  else
    let n : Int := Binary64.digitsValue ds
    some (some (if negative then -n else n), cs.dropWhile Char.isDigit)

/-- The exponent of a number, if there is one. -/
def exponentPart? : List Char → Option (Option Int × List Char)
  | c :: cs =>
    if c = 'e' ∨ c = 'E' then
      match cs with
      | '-' :: ds => exponentDigits? true ds
      | '+' :: ds => exponentDigits? false ds
      | ds => exponentDigits? false ds
    else some (none, c :: cs)
  | [] => some (none, [])

/-- A number at the front of a text. -/
def numberText? (cs : List Char) : Option (Option JsonNumber × List Char) := do
  let (negative, cs) := match cs with
    | '-' :: cs => (true, cs)
    | cs => (false, cs)
  let (whole, cs) ← wholePart? cs
  let (fraction, cs) ← fractionPart? cs
  let (exponent, cs) ← exponentPart? cs
  some (numberOf? negative whole fraction exponent, cs)

/-! ## Values -/

/-- A leaf read in full, or a broken text. -/
def leaf (found : Option (List Char)) (value : JsonDraft) : JsonDraft × List Char :=
  match found with
  | some rest => (value, rest)
  | none => (.broken, [])

mutual

/-- The value at the front of a text, and the text after it. -/
def valueAt : Nat → List Char → JsonDraft × List Char
  | 0, _ => (.broken, [])
  | fuel + 1, cs =>
    match skipSpace cs with
    | 'n' :: cs => leaf (afterLiteral? "ull".toList cs) .null
    | 't' :: cs => leaf (afterLiteral? "rue".toList cs) (.bool true)
    | 'f' :: cs => leaf (afterLiteral? "alse".toList cs) (.bool false)
    | '\x22' :: cs =>
      match stringBody? cs with
      | some (s, rest) => (.string s, rest)
      | none => (.broken, [])
    | '[' :: cs =>
      match skipSpace cs with
      | ']' :: rest => (.array [] true, rest)
      | cs =>
        let (items, closed, rest) := itemsAt fuel cs
        (.array items closed, rest)
    | '\x7b' :: cs =>
      match skipSpace cs with
      | '\x7d' :: rest => (.object [] true, rest)
      | cs =>
        let (members, closed, rest) := membersAt fuel cs
        (.object members closed, rest)
    | cs =>
      match numberText? cs with
      | some (n, rest) => (.number n, rest)
      | none => (.broken, [])

/-- The items of an array from the next one on. -/
def itemsAt : Nat → List Char → List JsonDraft × Bool × List Char
  | 0, _ => ([], false, [])
  | fuel + 1, cs =>
    let (item, rest) := valueAt fuel cs
    match skipSpace rest with
    | ']' :: rest => ([item], true, rest)
    | ',' :: rest =>
      let (items, closed, rest) := itemsAt fuel rest
      (item :: items, closed, rest)
    | _ => ([item], false, [])

/-- The members of an object from the next one on. -/
def membersAt : Nat → List Char → List (Option String × JsonDraft) × Bool × List Char
  | 0, _ => ([], false, [])
  | fuel + 1, cs =>
    match skipSpace cs with
    | '\x22' :: cs =>
      match stringBody? cs with
      | none => ([], false, [])
      | some (key, rest) =>
        match skipSpace rest with
        | ':' :: rest =>
          let (value, rest) := valueAt fuel rest
          match skipSpace rest with
          | '\x7d' :: rest => ([(key, value)], true, rest)
          | ',' :: rest =>
            let (members, closed, rest) := membersAt fuel rest
            ((key, value) :: members, closed, rest)
          | _ => ([(key, value)], false, [])
        | _ => ([(key, .broken)], false, [])
    | _ => ([], false, [])

end

/-- What can be read of a text, and whether nothing but blanks follows it. -/
def ofText (s : String) : JsonDraft × Bool :=
  let cs := s.toList
  let (draft, rest) := valueAt (2 * cs.length + 2) cs
  (draft, (skipSpace rest).isEmpty)

/-! ## Complete drafts -/

mutual

/-- Nothing in the draft is broken or open; what the values are does not matter. -/
def wellFormed : JsonDraft → Bool
  | .null | .bool _ | .number _ | .string _ => true
  | .array items closed => allWellFormed items && closed
  | .object members closed => allMembersWellFormed members && closed
  | .broken => false

def allWellFormed : List JsonDraft → Bool
  | [] => true
  | d :: ds => d.wellFormed && allWellFormed ds

def allMembersWellFormed : List (Option String × JsonDraft) → Bool
  | [] => true
  | (_, d) :: ds => d.wellFormed && allMembersWellFormed ds

end

/-- A member put into a list of members: a name that is there keeps its place and takes the new
value. -/
def putMember (key : String) (value : Json) (members : List (String × Json)) :
    List (String × Json) :=
  if (members.lookup key).isSome then members.map fun m => if m.1 = key then (key, value) else m
  else members ++ [(key, value)]

mutual

/-- The value of a complete draft with fewer than `levels` levels of arrays and objects. -/
def valueWithin? : Nat → JsonDraft → Option Json
  | _, .null => some .null
  | _, .bool b => some (.bool b)
  | _, .number n => n.map .number
  | _, .string s => s.map .string
  | levels, .array items closed =>
    if levels ≤ 1 || !closed then none else (itemsWithin? (levels - 1) items).map .array
  | levels, .object members closed =>
    if levels ≤ 1 || !closed then none
    else (membersWithin? (levels - 1) members).map fun ms =>
      .object (ms.foldl (fun acc m => putMember m.1 m.2 acc) [])
  | _, .broken => none

def itemsWithin? : Nat → List JsonDraft → Option (List Json)
  | _, [] => some []
  | levels, d :: ds => do
    let v ← valueWithin? levels d
    let vs ← itemsWithin? levels ds
    some (v :: vs)

def membersWithin? : Nat → List (Option String × JsonDraft) → Option (List (String × Json))
  | _, [] => some []
  | levels, (key, d) :: ds => do
    let key ← key
    let v ← valueWithin? levels d
    let vs ← membersWithin? levels ds
    some ((key, v) :: vs)

end

/-- Arrays and objects nest less deep than this. -/
def maxLevels : Nat := 128

/-- The value that a text writes. -/
def readValue? (s : String) : Option Json :=
  match ofText s with
  | (draft, true) => valueWithin? maxLevels draft
  | (_, false) => none

mutual

/-- The draft of a value. -/
def ofValue : Json → JsonDraft
  | .null => .null
  | .bool b => .bool b
  | .number n => .number (some n)
  | .string s => .string (some s)
  | .array items => .array (ofItems items) true
  | .object members => .object (ofMembers members) true

def ofItems : List Json → List JsonDraft
  | [] => []
  | v :: vs => ofValue v :: ofItems vs

def ofMembers : List (String × Json) → List (Option String × JsonDraft)
  | [] => []
  | (k, v) :: ms => (some k, ofValue v) :: ofMembers ms

end

end JsonDraft

end Tariff
