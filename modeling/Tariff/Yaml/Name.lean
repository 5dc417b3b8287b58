import Tariff.Yaml.Cursor
import Tariff.Text.Hex
/-
  Tariff.Yaml.Name — directives, anchors and tags.
-/

namespace Tariff.Yaml

open Tariff.Text (hexValue?)

/-! ## Anchors -/

/-- What may follow the name of an anchor or an alias. -/
def endsAnchor (c : Cursor) : Bool :=
  c.atSpace || c.holdsAhead 0 fun x => ['?', ':', ',', ']', '\x7d', '%', '@', '`'].contains x

/-- The name behind an ampersand or a star. -/
def anchorName (c : Cursor) : Option (String × Cursor) :=
  let (name, c) := (c.skip 1).takeWhile isNameChar
  if name.isEmpty || !endsAnchor c then none else some (String.ofList name, c)

/-! ## Tags -/

/-- A character of a tag; in angle brackets more are allowed. -/
def isTagChar (bracketed : Bool) (x : Char) : Bool :=
  isNameChar x || [';', '/', '?', ':', '@', '&', '=', '+', '$', '.', '%', '!', '~', '*', '\'',
    '(', ')'].contains x || (bracketed && [',', '[', ']'].contains x)

/-- One escaped byte: a percent sign and two hexadecimal digits. -/
def escapedByte? (c : Cursor) : Option (Nat × Cursor) := do
  if !c.sees '%' then none
  let high ← (c.ahead 1).bind hexValue?
  let low ← (c.ahead 2).bind hexValue?
  some (high * 16 + low, c.skip 3)

/-- The bytes that continue a character. -/
def escapedTail? : Nat → Nat → Cursor → Option (Nat × Cursor)
  | 0, n, c => some (n, c)
  | count + 1, n, c => do
    let (byte, c) ← escapedByte? c
    if byte / 64 = 2 then escapedTail? count (n * 64 + byte % 64) c else none

/-- A character written as escaped bytes. -/
def escapedChar? (c : Cursor) : Option (Char × Cursor) := do
  let (byte, c) ← escapedByte? c
  let (n, c) ←
    if byte < 0x80 then some (byte, c)
    else if byte / 32 = 6 then escapedTail? 1 (byte % 32) c
    else if byte / 16 = 14 then escapedTail? 2 (byte % 16) c
    else if byte / 8 = 30 then escapedTail? 3 (byte % 8) c
    else none
  some (Char.ofNat n, c)

/-- The characters of a tag, escapes resolved. -/
def tagChars (bracketed : Bool) : Nat → Cursor → Option (List Char × Cursor)
  | 0, c => some ([], c)
  | fuel + 1, c =>
    match c.next with
    | some x =>
      if !isTagChar bracketed x then some ([], c)
      else do
        let (x, c) ← if x == '%' then escapedChar? c else some (x, c.skip 1)
        let (xs, c) ← tagChars bracketed fuel c
        some (x :: xs, c)
    | none => some ([], c)

/-- A handle: an exclamation mark, a name and perhaps a second mark. In a directive it must be
complete. -/
def tagHandle (inDirective : Bool) (c : Cursor) : Option (List Char × Cursor) :=
  if !c.sees '!' then none
  else
    let (name, c) := (c.skip 1).takeWhile isNameChar
    if c.sees '!' then some ('!' :: name ++ ['!'], c.skip 1)
    else if inDirective && !name.isEmpty then none
    else some ('!' :: name, c)

/-- A handle that is a shorthand: it ends with a second mark. -/
def isShorthand (handle : List Char) : Bool := 2 ≤ handle.length && handle.getLast? == some '!'

/-- The handle and the rest of a tag. A tag in angle brackets and the single mark have no
handle. -/
def tagParts (c : Cursor) : Option ((String × String) × Cursor) :=
  if c.ahead 1 == some '<' then do
    let (suffix, c) ← tagChars true (c.rest.length + 1) (c.skip 2)
    if suffix.isEmpty || !c.sees '>' then none else some (("", String.ofList suffix), c.skip 1)
  else do
    let (handle, c) ← tagHandle false c
    let (more, c) ← tagChars false (c.rest.length + 1) c
    if isShorthand handle then
      if more.isEmpty then none else some ((String.ofList handle, String.ofList more), c)
    else
      let suffix := handle.drop 1 ++ more
      if suffix.isEmpty then some (("", "!"), c) else some (("!", String.ofList suffix), c)

/-- A tag, with what may follow it. -/
def tagScan (inFlow : Bool) (c : Cursor) : Option ((String × String) × Cursor) := do
  let (parts, c) ← tagParts c
  if (inFlow && c.sees ',') || c.atSpace then some (parts, c) else none

/-! ## Directives -/

/-- A directive: the version of the notation, or a handle for tags. -/
inductive Directive where
  | version (major minor : Nat)
  | tag (handle tagStart : String)
  deriving Repr

/-- At most nine digits. -/
def versionNumber (c : Cursor) : Option (Nat × Cursor) :=
  let (digits, c) := c.takeWhile Char.isDigit
  if digits.isEmpty || 9 < digits.length then none
  else some (digits.foldl (fun n d => n * 10 + (d.toNat - 48)) 0, c)

def versionValue (c : Cursor) : Option (Directive × Cursor) := do
  let (major, c) ← versionNumber (c.skipWhile isGap)
  if !c.sees '.' then none
  let (minor, c) ← versionNumber (c.skip 1)
  some (.version major minor, c)

def tagValue (c : Cursor) : Option (Directive × Cursor) := do
  let (handle, c) ← tagHandle true (c.skipWhile isGap)
  if !c.atGap then none
  let c := c.skipWhile isGap
  let (start, c) ← tagChars true (c.rest.length + 1) c
  if start.isEmpty || !c.atSpace then none
  else some (.tag (String.ofList handle) (String.ofList start), c)

/-- A directive with its line. -/
def directiveScan (c : Cursor) : Option (Directive × Cursor) := do
  let (name, c) := (c.skip 1).takeWhile isNameChar
  if name.isEmpty || !c.atSpace then none
  let (directive, c) ←
    if name == "YAML".toList then versionValue c
    else if name == "TAG".toList then tagValue c
    else none
  let c := c.skipWhile isGap
  let c := if c.sees '#' then c.skipWhile (!isLineEnd ·) else c
  if c.atLineStop then some (directive, c.skipLineEnd) else none

end Tariff.Yaml
