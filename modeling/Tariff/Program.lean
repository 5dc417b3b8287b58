import Tariff.CommandLine.Reader
/-
  Tariff.Program — running a command line.

  The program ends with code 0, with 1 for a fault, with 2 for a command line that cannot be
  read, and with 101 where a command halts.
-/

namespace Tariff

/-- How a program ended, and what it wrote. -/
structure Ended where
  code : Nat
  output : String
  errors : String
  deriving DecidableEq, Repr

namespace Program

/-- A text whose first line stands behind a lead and whose other lines are indented. -/
def indented (lead : String) (indent : Nat) (text : String) : String :=
  lead ++ String.intercalate ("\n" ++ HelpTopic.spaces indent) (Text.lines text)

/-- The causes of a fault: one alone, or several with their numbers. -/
def causeLines : List String → List String
  | [cause] => [indented "    " 4 cause]
  | causes => causes.zipIdx.map fun (cause, i) =>
    let number := toString i
    indented (HelpTopic.spaces (5 - number.length) ++ number ++ ": ") 7 cause

/-- What is written of a fault. -/
def faultText (f : Fault) : String :=
  "Error: " ++ f.message ++
    if f.causes.isEmpty then ""
    else "\n\nCaused by:\n" ++ Text.joinLines (causeLines f.causes)

/-- How a program ends whose command ended like this. -/
def endedBy (result : Except Stop Unit) (pages : List String) : Ended :=
  let output := Console.text pages
  match result with
  | .ok () => ⟨0, output, ""⟩
  | .error (.fault f) => ⟨1, output, faultText f ++ "\n"⟩
  | .error .halt => ⟨101, output, ""⟩

/-- Run a command line; configurations are below the directory `configHome`. -/
def run {m : Type → Type} [Monad m] (host : Host m) (color : Bool) (configHome : String)
    (words : List String) : m Ended :=
  match CommandLine.read words with
  | .error e => return ⟨2, "", "error: " ++ e.message ++ "\n"⟩
  | .ok (.help topic) => return ⟨0, topic.page ++ "\n", ""⟩
  | .ok .version => return ⟨0, HelpTopic.programVersion ++ "\n", ""⟩
  | .ok (.run chosen command) => do
    let (result, pages) ←
      (command.run host color (Config.defaultPath configHome) chosen).run
    return endedBy result pages

end Program

end Tariff
