import Tariff.Files.Path
/-
  Tariff.Files.Tree — files and directories below a working directory.

  Paths are followed step by step, so each step but the last must lead to a directory. Nothing
  is known of what lies outside: the root and the directories above the working directory are
  taken as empty.
-/

namespace Tariff

/-- A file with its content, or a directory with its entries. -/
inductive FileTree where
  | file (content : String)
  | directory (entries : List (String × FileTree))
  deriving Repr

namespace FileTree

def empty : FileTree := .directory []

def isDirectory : FileTree → Bool
  | .directory _ => true
  | .file _ => false

/-- An entry of a directory. -/
def child? (name : String) : FileTree → Option FileTree
  | .directory entries => entries.lookup name
  | .file _ => none

/-! ## Following paths -/

/-- The names that lead from the working directory to a place; nothing for a place outside. -/
abbrev Place := Option (List String)

/-- The node at the end of names. -/
def nodeAt? (t : FileTree) : List String → Option FileTree
  | [] => some t
  | name :: names => (t.child? name).bind fun c => nodeAt? c names

/-- What is at a place; outside there are empty directories. -/
def at? (t : FileTree) : Place → Option FileTree
  | none => some empty
  | some names => t.nodeAt? names

/-- Take one step from a directory. -/
def step (t : FileTree) (here : Place) (name : String) : Except OsError Place :=
  match t.at? here with
  | none => .error .notFound
  | some (.file _) => .error .notDirectory
  | some (.directory _) =>
    if name == "." then .ok here
    else match here with
      | none => if name == ".." then .ok none else .error .notFound
      | some names =>
        if name == ".." then .ok (if names.isEmpty then none else some names.dropLast)
        else .ok (some (names ++ [name]))

/-- Where a path leads, whether or not its last step exists. -/
def placeOf (t : FileTree) (path : String) : Except OsError Place :=
  if path.toList.contains '\x00' then .error .zeroInPath
  else if path.isEmpty then .error .notFound
  else (Path.steps path).foldlM t.step (if Path.isAbsolute path then none else some [])

/-- What a path leads to. -/
def find (t : FileTree) (path : String) : Except OsError FileTree := do
  let place ← t.placeOf path
  match t.at? place with
  | none => .error .notFound
  | some found =>
    if Path.endsInSlash path && !found.isDirectory then .error .notDirectory else .ok found

/-! ## Operations -/

/-- The content of a file. -/
def read (t : FileTree) (path : String) : Except OsError String := do
  match ← t.find path with
  | .file content => .ok content
  | .directory _ => .error .isDirectory

/-- There is something at a path. -/
def isThere (t : FileTree) (path : String) : Bool := (t.find path).isOk

/-- There is a directory at a path. -/
def isDirectoryAt (t : FileTree) (path : String) : Bool :=
  match t.find path with
  | .ok found => found.isDirectory
  | .error _ => false

/-- Put a node at the end of names; the directories on the way must exist. -/
def put (t : FileTree) (names : List String) (node : FileTree) : FileTree :=
  match names, t with
  | [], _ => node
  | _, .file content => .file content
  | name :: names, .directory entries =>
    match entries.lookup name with
    | some child => .directory (entries.map fun e =>
        if e.1 == name then (name, child.put names node) else e)
    | none => .directory (entries ++ [(name, node)])

/-- Make a directory at a path. -/
def makeDirectory (t : FileTree) (path : String) : Except OsError FileTree := do
  let place ← t.placeOf path
  match t.at? place, place with
  | none, some names => .ok (t.put names empty)
  | _, _ => .error .exists

/-- Make a directory at a path and all that are missing above it. -/
def makeDirectories (t : FileTree) : Nat → String → Except OsError Unit × FileTree
  | 0, _ => (.error .notFound, t)
  | fuel + 1, path =>
    if path.isEmpty then (.ok (), t)
    else
      let settle (t : FileTree) : Except OsError Unit × FileTree :=
        match t.makeDirectory path with
        | .ok t => (.ok (), t)
        | .error e => (if t.isDirectoryAt path then .ok () else .error e, t)
      match t.makeDirectory path with
      | .error .notFound =>
        match Path.parent? path with
        | none => (.error (.other "failed to create whole tree"), t)
        | some parent =>
          match t.makeDirectories fuel parent with
          | (.ok (), t) => settle t
          | failed => failed
      | _ => settle t

/-- Write a file at a path, over a file that is there. -/
def write (t : FileTree) (path content : String) : Except OsError FileTree := do
  let place ← t.placeOf path
  match t.at? place, place with
  | some (.directory _), _ => .error .isDirectory
  | _, none => .error .notFound
  | _, some names =>
    if Path.endsInSlash path then .error .isDirectory else .ok (t.put names (.file content))

/-- A tree of files by their paths, directories made as needed. -/
def ofFiles (files : List (String × String)) : FileTree :=
  files.foldl (fun t (path, content) =>
    let t := match Path.parent? path with
      | some parent => (t.makeDirectories (parent.length + 1) parent).2
      | none => t
    match t.write path content with
    | .ok t => t
    | .error _ => t) empty

end FileTree

end Tariff
