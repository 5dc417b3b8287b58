import Tariff.Command.Console
import Tariff.Config.Example
import Tariff.Files.Disk
/-
  Tariff.Command.Setup — writing a configuration to start from.

  Nothing that is there is written over.
-/

namespace Tariff.Command

variable {m : Type → Type} [Monad m]

/-- Make the directory that a file is to lie in. -/
def makeRoom (disk : Disk m) (path : String) : Act m Unit :=
  match Path.parent? path with
  | none => return ()
  | some directory => do
    Act.ofExcept (.directoryNotMade directory) (← (disk.makeDirectories directory : m _))

/-- Write the example configuration to a path. -/
def setUp (disk : Disk m) (path : String) : Console m Unit := do
  if ← Console.perform (m := m) (ExceptT.lift (disk.isThere path)) then
    throw (.fault (.configExists path))
  Console.perform (makeRoom disk path)
  Act.ofExcept (.configNotWritten path)
    (← Console.perform (ExceptT.lift (disk.write path Config.exampleText)))
  Console.say s!"Created default configuration at {path}"

end Tariff.Command
