import Std.Time
import Tariff.Program
/-
  Tariff.Main — the program on this machine.

  Files and clocks are those of the machine. It has no way to the service: every request stays
  unsent.
-/

namespace Tariff.Machine

/-- Why an operation of the machine failed. -/
def osError : IO.Error → OsError
  | .noFileOrDirectory .. => .notFound
  | .alreadyExists .. => .exists
  | .inappropriateType _ 20 _ => .notDirectory
  | .inappropriateType _ 21 _ => .isDirectory
  | e => .other (toString e)

/-- The outcome of an operation of the machine. -/
def outcome {α : Type} (act : IO α) : IO (Except OsError α) := do
  match ← act.toBaseIO with
  | .ok a => return .ok a
  | .error e => return .error (osError e)

def disk : Disk IO where
  read path := outcome (IO.FS.readFile path)
  isThere path := return (← outcome (IO.FS.realPath path)).isOk
  makeDirectories path := outcome (IO.FS.createDirAll path)
  write path content := outcome (IO.FS.writeFile path content)

/-- The time of the day. -/
def today : IO Instant := do
  let now ← Std.Time.Timestamp.now
  let nanos := now.toNanosecondsSinceUnixEpoch.val
  return (Instant.ofSeconds? (nanos / 1000000000) (nanos % 1000000000).toNat).getD .epoch

def host : Host IO where
  disk := disk
  link := .unreachable
  sleep ms := IO.sleep ms.toUInt32
  clock := IO.monoMsNow
  today := today

/-- The directory of configurations. -/
def configHome : IO String := do
  match ← IO.getEnv "XDG_CONFIG_HOME" with
  | some directory => if Path.isAbsolute directory then return directory
  | none => pure ()
  return Path.below ((← IO.getEnv "HOME").getD "") ".config"

end Tariff.Machine

def main (words : List String) : IO UInt32 := do
  let output ← IO.getStdout
  let ended ← Tariff.Program.run Tariff.Machine.host (← output.isTty)
    (← Tariff.Machine.configHome) words
  output.putStr ended.output
  (← IO.getStderr).putStr ended.errors
  return ended.code.toUInt32
