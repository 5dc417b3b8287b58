import Tariff.Yaml.Cursor
import Tariff.Text.Hex
/-
  Tariff.Yaml.Flow — scalars that are folded: plain ones, and those in single or double quotes.

  Gaps inside a line are kept; line ends between two parts are folded, one into a space and
  more into all but the first. A scan gives the characters and the place behind them, or
  nothing where the text is no YAML.
-/

namespace Tariff.Yaml

open Tariff.Text (hexValue?)

/-- What stands between two parts of a scalar. -/
structure Gaps where
  /-- A line end has been passed. -/
  broken : Bool
  /-- The gaps of the line. -/
  inLine : List Char
  /-- The first line end. -/
  first : List Char
  /-- The line ends after it. -/
  later : List Char
  deriving Repr

namespace Gaps

def none : Gaps := ⟨false, [], [], []⟩

/-- A line end that was escaped counts for nothing. -/
def escaped : Gaps := ⟨true, [], [], []⟩

/-- What gaps and line ends stand for. -/
def joined (g : Gaps) : List Char :=
  if !g.broken then g.inLine
  else if g.first.head? == some '\n' then (if g.later.isEmpty then [' '] else g.later)
  else g.first ++ g.later

end Gaps

/-- Pass gaps and line ends. A tab in front of column `margin` of a new line is refused. -/
def passGaps (margin : Nat) : Nat → Gaps → Cursor → Option (Gaps × Cursor)
  | 0, g, c => some (g, c)
  | fuel + 1, g, c =>
    match c.next with
    | some x =>
      if isGap x then
        if g.broken && c.column < margin && x == '\t' then Option.none
        else passGaps margin fuel (if g.broken then g else { g with inLine := g.inLine ++ [x] })
          (c.skip 1)
      else if isLineEnd x then
        let (read, c) := c.takeLineEnd
        passGaps margin fuel
          (if g.broken then { g with later := g.later ++ read } else ⟨true, [], read, g.later⟩) c
      else some (g, c)
    | Option.none => some (g, c)

/-! ## Quoted scalars -/

/-- Escapes of one character. -/
def simpleEscape? (e : Char) : Option Char :=
  match e with
  | '0' => some '\x00'
  | 'a' => some '\x07'
  | 'b' => some '\x08'
  | 't' => some '\t'
  | '\t' => some '\t'
  | 'n' => some '\n'
  | 'v' => some '\x0b'
  | 'f' => some '\x0c'
  | 'r' => some '\r'
  | 'e' => some '\x1b'
  | ' ' => some ' '
  | '\x22' => some '\x22'
  | '/' => some '/'
  | '\\' => some '\\'
  | 'N' => some '\u0085'
  | '_' => some '\u00a0'
  | 'L' => some '\u2028'
  | 'P' => some '\u2029'
  | _ => none

/-- How many hexadecimal digits an escape takes. -/
def escapeDigits? (e : Char) : Option Nat :=
  match e with
  | 'x' => some 2
  | 'u' => some 4
  | 'U' => some 8
  | _ => none

/-- The character behind a backslash, and the place behind the escape. -/
def escape? (c : Cursor) : Option (Char × Cursor) := do
  let e ← c.ahead 1
  match simpleEscape? e with
  | some x => some (x, c.skip 2)
  | none =>
    let count ← escapeDigits? e
    let digits ← ((c.rest.drop 2).take count).mapM hexValue?
    if digits.length < count then none
    else
      let n := digits.foldl (fun n d => n * 16 + d) 0
      if n.isValidChar then some (Char.ofNat n, c.skip (2 + count)) else none

/-- The quote that closes a scalar. -/
def quoteOf (single : Bool) : Char := if single then '\'' else '\x22'

/-- A part of a quoted scalar: up to a gap, a line end or the closing quote; and whether it
ended with an escaped line end. -/
def quotedPart (single : Bool) : Nat → Cursor → Option (List Char × Bool × Cursor)
  | 0, _ => none
  | fuel + 1, c =>
    match c.next with
    | none => some ([], false, c)
    | some x =>
      if c.atSpace then some ([], false, c)
      else if single && x == '\'' && c.ahead 1 == some '\'' then
        (quotedPart single fuel (c.skip 2)).map fun (xs, r) => ('\'' :: xs, r)
      else if x == quoteOf single then some ([], false, c)
      else if !single && x == '\\' && c.holdsAhead 1 isLineEnd then
        some ([], true, (c.skip 1).skipLineEnd)
      else if !single && x == '\\' then do
        let (y, c) ← escape? c
        (quotedPart single fuel c).map fun (xs, r) => (y :: xs, r)
      else (quotedPart single fuel (c.skip 1)).map fun (xs, r) => (x :: xs, r)

/-- A quoted scalar behind its opening quote. A document mark may not begin a line in it. -/
def quotedRest (single : Bool) : Nat → Cursor → Option (List Char × Cursor)
  | 0, _ => none
  | fuel + 1, c =>
    if c.atDocumentMark || c.atEnd then none
    else do
      let (part, escaped, c) ← quotedPart single (c.rest.length + 1) c
      if c.sees (quoteOf single) then some (part, c.skip 1)
      else
        let (gaps, c) ← passGaps 0 (c.rest.length + 1)
          (if escaped then Gaps.escaped else Gaps.none) c
        let (more, c) ← quotedRest single fuel c
        some (part ++ gaps.joined ++ more, c)

/-- A quoted scalar. -/
def quotedScalar (single : Bool) (c : Cursor) : Option (List Char × Cursor) :=
  quotedRest single (c.rest.length + 1) (c.skip 1)

/-! ## Plain scalars -/

/-- The marks of flow collections. -/
def isFlowMark (c : Char) : Bool := c == ',' || c == '[' || c == ']' || c == '\x7b' || c == '\x7d'

/-- A part of a plain scalar: up to a gap, a line end or a mark that ends it. A colon right in
front of a mark of a flow collection is refused. -/
def plainPart (inFlow : Bool) : Nat → Cursor → Option (List Char × Cursor)
  | 0, _ => none
  | fuel + 1, c =>
    match c.next with
    | none => some ([], c)
    | some x =>
      if c.atSpace then some ([], c)
      else if inFlow && x == ':' && c.holdsAhead 1 (fun y => isFlowMark y || y == '?') then none
      else if (x == ':' && c.spaceAhead 1) || (inFlow && isFlowMark x) then some ([], c)
      else (plainPart inFlow fuel (c.skip 1)).map fun (xs, c) => (x :: xs, c)

/-- A plain scalar from the part behind `gaps` on, and whether line ends follow it. Outside flow
collections it ends before a line that begins in front of column `margin`. -/
def plainRest (inFlow : Bool) (margin : Nat) :
    Nat → Gaps → Cursor → Option (List Char × Bool × Cursor)
  | 0, _, _ => none
  | fuel + 1, gaps, c =>
    if c.atDocumentMark || c.sees '#' then some ([], gaps.broken, c)
    else do
      let (part, c) ← plainPart inFlow (c.rest.length + 1) c
      let text := if part.isEmpty then [] else gaps.joined ++ part
      let gaps := if part.isEmpty then gaps else Gaps.none
      if !(c.atGap || c.atLineEnd) then some (text, gaps.broken, c)
      else
        let (gaps, c) ← passGaps margin (c.rest.length + 1) gaps c
        if !inFlow && c.column < margin then some (text, gaps.broken, c)
        else
          let (more, broken, c) ← plainRest inFlow margin fuel gaps c
          some (text ++ more, broken, c)

/-- A plain scalar, and whether line ends follow it. -/
def plainScalar (inFlow : Bool) (margin : Nat) (c : Cursor) :
    Option (List Char × Bool × Cursor) :=
  plainRest inFlow margin (c.rest.length + 1) Gaps.none c

end Tariff.Yaml
