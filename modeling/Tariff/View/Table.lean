import Tariff.View.Tone
import Tariff.Text.Lines
import Tariff.Text.Width
/-
  Tariff.View.Table — tables in a frame of box-drawing characters.

  A column is as wide as its widest line, in terminal columns, with a space on either side; a
  cell of several lines makes its row as high as needed. The ink of a cell covers its lines
  with their padding, not the lines that are missing below them.
-/

namespace Tariff

/-- The colour of a cell, by its number in the terminal's palette, and whether it is bold. -/
structure Ink where
  color : Nat
  bold : Bool
  deriving DecidableEq, Repr

structure Cell where
  text : String
  rightAligned : Bool
  ink : Option Ink
  deriving Repr

namespace Cell

def plain (text : String) : Cell := ⟨text, false, none⟩

def number (text : String) : Cell := ⟨text, true, none⟩

/-- A cell of a header: bold cyan. -/
def header (text : String) : Cell := ⟨text, false, some ⟨14, true⟩⟩

def lines (c : Cell) : List String := Text.lines c.text

/-- The columns of the widest line. -/
def width (c : Cell) : Nat := (c.lines.map Text.width).foldl max 0

end Cell

/-- A table; every row has as many cells as the header. -/
structure Table where
  header : List Cell
  rows : List (List Cell)

namespace Table

def spaces (n : Nat) : String := String.ofList (List.replicate n ' ')

/-- The widths of the columns. -/
def widths (t : Table) : List Nat :=
  t.rows.foldl (fun ws row => List.zipWith max ws (row.map Cell.width)) (t.header.map Cell.width)

/-- A text in the ink of a cell. Bold text ends by resetting everything, other text by
resetting the colour. -/
def inked (ink : Ink) (text : String) : String :=
  Tone.escape s!"38;5;{ink.color}" ++
    (if ink.bold then Tone.escape "1" ++ text ++ Tone.escape "0" else text ++ Tone.escape "39")

/-- One line of a cell in a column of a width. -/
def cellLine (styled : Bool) (width : Nat) (c : Cell) (line : String) : String :=
  let gap := spaces (width - Text.width line)
  let padded := if c.rightAligned then " " ++ gap ++ line ++ " " else " " ++ line ++ gap ++ " "
  match styled, c.ink with
  | true, some ink => inked ink padded
  | _, _ => padded

/-- Line `i` of a cell; spaces where the cell has no such line. -/
def cellLineAt (styled : Bool) (i : Nat) (width : Nat) (c : Cell) : String :=
  match c.lines[i]? with
  | some line => cellLine styled width c line
  | none => spaces (width + 2)

/-- The lines of a row. -/
def rowLines (styled : Bool) (widths : List Nat) (row : List Cell) : List String :=
  let height := (row.map (·.lines.length)).foldl max 0
  (List.range height).map fun i =>
    "│" ++ String.intercalate "┆" (List.zipWith (cellLineAt styled i) widths row) ++ "│"

/-- A line of the frame. -/
def rule (widths : List Nat) (left : String) (stroke : Char) (cross right : String) : String :=
  let strokes := widths.map fun w => String.ofList (List.replicate (w + 2) stroke)
  left ++ String.intercalate cross strokes ++ right

/-- The lines of a table. -/
def lines (styled : Bool) (t : Table) : List String :=
  let ws := t.widths
  let body := (t.rows.map (rowLines styled ws)).intersperse [rule ws "├" '╌' "┼" "┤"]
  [rule ws "╭" '─' "┬" "╮"] ++ rowLines styled ws t.header ++ [rule ws "╞" '═' "╪" "╡"]
    ++ body.flatten ++ [rule ws "╰" '─' "┴" "╯"]

/-- The table as text, without ink. -/
def text (t : Table) : String := Text.joinLines (t.lines false)

end Table

end Tariff
