import Tariff.CommandLine.Switch
import Tariff.Text.Lines
/-
  Tariff.CommandLine.Help — the pages that tell how the program is used.

  A page has a sentence, a line of usage, and sections with a row for each word. The rows of a
  section are in two columns, unless an explanation does not fit beside its word; then every
  explanation of the section stands below its word.
-/

namespace Tariff

/-- What a page is about. -/
inductive HelpTopic where
  | scope (scope : Scope)
  /-- The word that asks for help. -/
  | help
  deriving DecidableEq, Repr

namespace HelpTopic

def programName : String := "pricegate"

def programVersion : String := programName ++ " 0.1.0"

def programAbout : String :=
  "A CLI app to validate and schedule price amount versions for a billing platform"

def helpAbout : String := "Print this message or the help of the given subcommand(s)"

/-- What a switch is for. -/
def switchAbout (scope : Scope) : Switch → String
  | .verbose => "Enable verbose logging"
  | .configPath => "Path to optional configuration file"
  | .help => "Print help"
  | .version => "Print version"
  | .file => "YAML file with currencies, history and proposal"
  | .now =>
    if scope = some .amounts then "Derive statuses as of this instant instead of the current time"
    else "Validate as of this instant instead of the current time"
  | .yes => "Confirm that this creates a new version and does not edit history"
  | .currency | .amount | .effectiveFrom => ""

/-! ## Sections -/

/-- A word and its explanation. -/
structure Row where
  word : String
  about : String

def spaces (n : Nat) : String := String.ofList (List.replicate n ' ')

/-- The width of a page. -/
def pageWidth : Nat := 100

def widest (rows : List Row) : Nat := rows.foldl (fun n r => max n r.word.length) 0

/-- An explanation of the section does not fit beside its word. -/
def isCrowded (rows : List Row) : Bool :=
  let taken := widest rows + 12
  rows.any fun r => 40 < taken && taken ≤ pageWidth && pageWidth - taken < r.about.length

/-- The rows of a section. -/
def rowLines (rows : List Row) : List String :=
  if isCrowded rows then rows.flatMap fun r => ["  " ++ r.word, spaces 10 ++ r.about]
  else rows.map fun r =>
    "  " ++ r.word ++ spaces (widest rows - r.word.length + 2) ++ r.about

def sectionText (title : String) (rows : List Row) : String :=
  Text.joinLines ((title ++ ":") :: rowLines rows)

/-! ## Pages -/

def switchRow (scope : Scope) (s : Switch) : Row where
  word := (s.short?.elim "    " fun c => String.ofList ['-', c, ',', ' ']) ++ s.usage
  about := switchAbout scope s

def optionsSection (scope : Scope) : String :=
  sectionText "Options" (scope.switches.map (switchRow scope))

def commandsSection : String :=
  sectionText "Commands"
    (Verb.all.map (fun v => ⟨v.name, v.about⟩) ++ [⟨helpWord, helpAbout⟩])

/-- How a verb is used. -/
def verbUsage (v : Verb) : String :=
  let required := ((Scope.switches (some v)).filter (·.isRequired)).map Switch.usage
  String.intercalate " " ([programName, v.name, "[OPTIONS]"] ++ required
    ++ if v.takesPrice then ["<PRICE_ID>"] else [])

/-- The paragraphs of a page. -/
def paragraphs : HelpTopic → List String
  | .scope none =>
    [programAbout, s!"Usage: {programName} [OPTIONS] [COMMAND]", commandsSection,
      optionsSection none]
  | .scope (some v) =>
    [v.about, "Usage: " ++ verbUsage v]
      ++ (if v.takesPrice then [sectionText "Arguments" [⟨"<PRICE_ID>", ""⟩]] else [])
      ++ [optionsSection (some v)]
  | .help =>
    [helpAbout, s!"Usage: {programName} {helpWord} [COMMAND]...",
      sectionText "Arguments" [⟨"[COMMAND]...", "Print help for the subcommand(s)"⟩]]

/-- A page. -/
def page (topic : HelpTopic) : String := String.intercalate "\n\n" topic.paragraphs

end HelpTopic

end Tariff
