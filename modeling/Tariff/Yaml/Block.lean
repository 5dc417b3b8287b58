import Tariff.Yaml.Cursor
/-
  Tariff.Yaml.Block — block scalars.

  A header names the style, how line ends at the end are treated and perhaps the indentation;
  without it the first line that is not blank sets the indentation. A literal scalar keeps its
  line ends; in a folded one a single line end between two lines that do not begin with a gap
  becomes a space.
-/

namespace Tariff.Yaml

/-- What becomes of the line ends at the end. -/
inductive Chomping where
  /-- All are dropped. -/
  | strip
  /-- One is kept. -/
  | clip
  /-- All are kept. -/
  | keep
  deriving DecidableEq, Repr

/-- The header of a block scalar. -/
structure BlockHeader where
  chomping : Chomping
  /-- The indentation relative to the collection around it, zero if it is not given. -/
  indentation : Nat
  deriving Repr

/-- A plus or a minus. -/
def chomping? (c : Cursor) : Option (Chomping × Cursor) :=
  match c.next with
  | some '+' => some (.keep, c.skip 1)
  | some '-' => some (.strip, c.skip 1)
  | _ => none

/-- A digit for the indentation, which may not be zero; nothing where there is no digit. -/
def indentation? (c : Cursor) : Option (Nat × Cursor) :=
  match c.next with
  | some x =>
    if x.isDigit then (if x == '0' then none else some (x.toNat - 48, c.skip 1)) else some (0, c)
  | none => some (0, c)

/-- The header behind the mark of a block scalar, to the end of its line. -/
def blockHeader? (c : Cursor) : Option (BlockHeader × Cursor) := do
  let (header, c) ← match chomping? c with
    | some (chomping, c) => do
      let (n, c) ← indentation? c
      some (BlockHeader.mk chomping n, c)
    | none => do
      let (n, c) ← indentation? c
      if n = 0 then some (BlockHeader.mk .clip 0, c)
      else match chomping? c with
        | some (chomping, c) => some (BlockHeader.mk chomping n, c)
        | none => some (BlockHeader.mk .clip n, c)
  let c := c.skipWhile isGap
  let c := if c.sees '#' then c.skipWhile (!isLineEnd ·) else c
  if c.atLineStop then some (header, c.skipLineEnd) else none

/-- Pass the indentation of a line: at most `indent` columns, or any number while the
indentation is not known. -/
def passIndent (indent : Nat) (c : Cursor) : Cursor :=
  let spaces := (c.rest.takeWhile (· == ' ')).length
  c.skip (if indent = 0 then spaces else min spaces (indent - c.column))

/-- Pass blank lines and the indentation of the next one: the line ends, the widest column that
was met, and the place. -/
def blankLines (indent : Nat) : Nat → Nat → Cursor → Option (List Char × Nat × Cursor)
  | 0, _, _ => none
  | fuel + 1, widest, c =>
    let c := passIndent indent c
    let widest := max widest c.column
    if (indent = 0 || c.column < indent) && c.sees '\t' then none
    else if c.atLineEnd then
      let (read, c) := c.takeLineEnd
      (blankLines indent fuel widest c).map fun (more, r) => (read ++ more, r)
    else some ([], widest, c)

/-- What has been read of a block scalar. -/
structure BlockState where
  text : List Char
  /-- The line end of the last line. -/
  lineEnd : List Char
  /-- The blank lines after it. -/
  blanks : List Char
  /-- The last line began with a gap. -/
  gapped : Bool
  deriving Repr

/-- The text with the line ends in front of the next line. -/
def BlockState.joined (literal gapped : Bool) (s : BlockState) : List Char :=
  if !literal && s.lineEnd.head? == some '\n' && !s.gapped && !gapped then
    s.text ++ (if s.blanks.isEmpty then [' '] else []) ++ s.blanks
  else s.text ++ s.lineEnd ++ s.blanks

/-- The lines of a block scalar. -/
def blockLines (literal : Bool) (indent : Nat) :
    Nat → BlockState → Cursor → Option (BlockState × Cursor)
  | 0, _, _ => none
  | fuel + 1, s, c =>
    if c.column != indent || c.atEnd then some (s, c)
    else do
      let gapped := c.atGap
      let (line, c) := c.takeWhile (!isLineEnd ·)
      let (lineEnd, c) := c.takeLineEnd
      let (blanks, _, c) ← blankLines indent (c.rest.length + 1) 0 c
      blockLines literal indent fuel ⟨s.joined literal gapped ++ line, lineEnd, blanks, gapped⟩ c

/-- What chomping leaves of a block scalar. -/
def BlockState.chomped (s : BlockState) : Chomping → List Char
  | .strip => s.text
  | .clip => s.text ++ s.lineEnd
  | .keep => s.text ++ s.lineEnd ++ s.blanks

/-- A block scalar inside a collection at column `parent`, if there is one. -/
def blockScalar (literal : Bool) (parent : Option Nat) (c : Cursor) :
    Option (List Char × Cursor) := do
  let (header, c) ← blockHeader? (c.skip 1)
  let given := if header.indentation = 0 then 0 else parent.getD 0 + header.indentation
  let (blanks, widest, c) ← blankLines given (c.rest.length + 1) 0 c
  let least := parent.elim 1 (· + 1)
  let indent := if given = 0 then max widest least else given
  let (s, c) ← blockLines literal indent (c.rest.length + 1) ⟨[], [], blanks, false⟩ c
  some (s.chomped header.chomping, c)

end Tariff.Yaml
