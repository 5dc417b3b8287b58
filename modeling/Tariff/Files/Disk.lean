import Tariff.Files.Tree
/-
  Tariff.Files.Disk — what can be done with files.

  The files may be those of the machine, or a tree in memory.
-/

namespace Tariff

/-- Operations on files. -/
structure Disk (m : Type → Type) where
  /-- The content of a file. -/
  read (path : String) : m (Except OsError String)
  /-- There is something at a path. -/
  isThere (path : String) : m Bool
  /-- Make a directory and all that are missing above it. -/
  makeDirectories (path : String) : m (Except OsError Unit)
  /-- Write a file. -/
  write (path content : String) : m (Except OsError Unit)

/-- A tree of files as a disk. -/
def FileTree.disk {m : Type → Type} [Monad m] : Disk (StateT FileTree m) where
  read path := return (← get).read path
  isThere path := return (← get).isThere path
  makeDirectories path := do
    let (result, tree) := (← get).makeDirectories (path.length + 1) path
    set tree
    return result
  write path content := do
    match (← get).write path content with
    | .ok tree => do
      set tree
      return .ok ()
    | .error why => return .error why

/-- The same files where paths below a directory are also written from that directory on. -/
def Disk.within {m : Type → Type} (disk : Disk m) (directory : String) : Disk m :=
  let inner (path : String) : String :=
    let above := directory ++ "/"
    if above.toList.isPrefixOf path.toList then String.ofList (path.toList.drop above.length)
    else path
  { read := fun path => disk.read (inner path)
    isThere := fun path => disk.isThere (inner path)
    makeDirectories := fun path => disk.makeDirectories (inner path)
    write := fun path content => disk.write (inner path) content }

end Tariff
