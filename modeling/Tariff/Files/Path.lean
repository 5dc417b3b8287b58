/-
  Tariff.Files.Path — paths as they are typed, and why a file operation fails.

  A path is a text of steps divided by slashes. Empty steps count for nothing, nor does a point
  behind the first step; two points lead to the directory above.
-/

namespace Tariff

/-- Why a file operation fails. -/
inductive OsError where
  | notFound
  | exists
  | notDirectory
  | isDirectory
  /-- The path holds a zero character. -/
  | zeroInPath
  | other (text : String)
  deriving DecidableEq, Repr

def OsError.message : OsError → String
  | .notFound => "No such file or directory (os error 2)"
  | .exists => "File exists (os error 17)"
  | .notDirectory => "Not a directory (os error 20)"
  | .isDirectory => "Is a directory (os error 21)"
  | .zeroInPath => "file name contained an unexpected NUL byte"
  | .other text => text

namespace Path

/-- The steps between slashes, empty ones included. -/
def splitSteps : List Char → List (List Char)
  | [] => [[]]
  | c :: cs =>
    if c = '/' then [] :: splitSteps cs
    else match splitSteps cs with
      | [] => [[c]]
      | step :: steps => (c :: step) :: steps

/-- The steps of a path. -/
def steps (path : String) : List String :=
  ((splitSteps path.toList).filter (!·.isEmpty)).map String.ofList

/-- The path begins at the root. -/
def isAbsolute (path : String) : Bool := path.toList.head? == some '/'

/-- The path ends with a slash, so it can only be a directory. -/
def endsInSlash (path : String) : Bool := path.toList.getLast? == some '/'

/-- A reversed path without the slashes and lone points at its end; a point or a slash that is
all of the path stays. -/
def trimEnd : List Char → List Char
  | ['/'] => ['/']
  | '/' :: rest => trimEnd rest
  | '.' :: '/' :: rest => trimEnd ('/' :: rest)
  | rest => rest

/-- The path of the directory that a path lies in: the path without its last step. The root and
the empty path lie in none. -/
def parent? (path : String) : Option String :=
  match trimEnd path.toList.reverse with
  | [] => none
  | ['/'] => none
  | reversed =>
    some (String.ofList (trimEnd (reversed.dropWhile (· != '/'))).reverse)

/-- A path below a directory. -/
def below (directory path : String) : String := directory ++ "/" ++ path

end Path

end Tariff
