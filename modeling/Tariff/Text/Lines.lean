/-
  Tariff.Text.Lines — texts as lists of lines.
-/

namespace Tariff.Text

/-- The characters between line feeds: a text with n line feeds has n + 1 lines. -/
def splitLines : List Char → List (List Char)
  | [] => [[]]
  | c :: cs =>
    if c = '\n' then [] :: splitLines cs
    else match splitLines cs with
      | [] => [[c]]
      | line :: lines => (c :: line) :: lines

/-- The lines of a text. -/
def lines (s : String) : List String := (splitLines s.toList).map String.ofList

/-- Lines as a text. -/
def joinLines (lines : List String) : String := String.intercalate "\n" lines

end Tariff.Text
