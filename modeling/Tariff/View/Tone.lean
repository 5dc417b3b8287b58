/-
  Tariff.View.Tone — the tones in which lines are shown to an operator.

  On a terminal with colour a tone is a sequence of escape codes in front of the text and one
  that ends it; elsewhere the text stands alone.
-/

namespace Tariff

inductive Tone where
  | title
  | success
  | warning
  | error
  | subtle
  deriving DecidableEq, Repr

namespace Tone

/-- A tone by its name. -/
def ofName? : String → Option Tone
  | "title" => some .title
  | "success" => some .success
  | "warning" => some .warning
  | "error" => some .error
  | "subtle" => some .subtle
  | _ => none

/-- The escape code of a rendition. -/
def escape (code : String) : String := "\x1b[" ++ code ++ "m"

/-- The codes in front of a text. -/
def codes : Tone → String
  | .title => escape "1" ++ escape "4"
  | .success => escape "32" ++ escape "1"
  | .warning => escape "33"
  | .error => escape "31"
  | .subtle => escape "2"

/-- A text in a tone, where there is colour. -/
def paint (color : Bool) (tone : Tone) (text : String) : String :=
  if color then tone.codes ++ text ++ escape "0" else text

end Tone

end Tariff
