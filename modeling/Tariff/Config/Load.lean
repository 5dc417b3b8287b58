import Tariff.Config.Basic
import Tariff.Files.Disk
import Tariff.Fault
import Tariff.Yaml.Source
/-
  Tariff.Config.Load — the configuration in a file, and where that file is.
-/

namespace Tariff.Config

/-- The file of the configuration below the directory of configurations. -/
def defaultPath (configHome : String) : String := Path.below configHome "pricegate/config.yaml"

/-- Load the configuration in a file. -/
def load {m : Type → Type} [Monad m] (disk : Disk m) (path : String) : Act m Config := do
  let text ← Act.ofExcept (.unreadable .config path) (← (disk.read path : m _))
  Act.ofExcept (.undecodable .config path) (Yaml.decode decode text)

end Tariff.Config
