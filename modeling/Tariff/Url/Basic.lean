import Tariff.Url.Host
/-
  Tariff.Url.Basic — absolute addresses of the web and their normal form.

  An address is read as browsers read it: blanks around it and line ends in it are dropped, a
  backslash counts as a slash, the scheme and the host are in lower case, the default port of
  the scheme is dropped, steps that are points lead nowhere and double points to the step
  before, and other characters are escaped. `Url.text` writes the normal form.
-/

namespace Tariff

/-- An address. -/
structure Url where
  scheme : String
  host : String
  port : Option Nat
  /-- The parts of the path between slashes. -/
  path : List String
  query : Option String
  fragment : Option String
  deriving DecidableEq, Repr

namespace Url

/-! ## Scheme -/

/-- The text without controls and spaces at its ends and without tabs and line ends. -/
def cleaned (cs : List Char) : List Char :=
  let isEdge (c : Char) : Bool := c.toNat ≤ 0x20
  let trimmed := ((cs.dropWhile isEdge).reverse.dropWhile isEdge).reverse
  trimmed.filter fun c => c != '\t' && c != '\n' && c != '\r'

def isSchemeChar (c : Char) : Bool := c.isAlphanum || c == '+' || c == '-' || c == '.'

/-- The scheme in lower case, and what follows its colon. -/
def scheme? (cs : List Char) : Option (String × List Char) :=
  let name := cs.takeWhile isSchemeChar
  match name, cs.drop name.length with
  | first :: _, ':' :: rest =>
    if first.isAlpha then some (String.ofList (name.map Text.foldAscii), rest) else none
  | _, _ => none

/-- The schemes of hierarchical addresses and their ports. -/
def defaultPorts : List (String × Nat) :=
  [("http", 80), ("https", 443), ("ws", 80), ("wss", 443), ("ftp", 21)]

def isSlash (c : Char) : Bool := c == '/' || c == '\\'

/-! ## Host and port -/

/-- The port behind a colon; the default port of the scheme and an empty one count as none. -/
def portOf (scheme : String) (cs : List Char) : Except UrlError (Option Nat) :=
  if cs.isEmpty then .ok none
  else match digitsOf? 10 cs with
    | none => .error .badPort
    | some n =>
      if 65535 < n then .error .badPort
      else .ok (if defaultPorts.lookup scheme == some n then none else some n)

/-- Host and port of what stands between the slashes and the path: behind an at sign, and split
at the last colon that is not in brackets. -/
def authority (scheme : String) (cs : List Char) : Except UrlError (String × Option Nat) := do
  let place := (cs.reverse.takeWhile (· != '@')).reverse
  let digits := place.reverse.takeWhile fun c => c != ':' && c != ']'
  match place.reverse.drop digits.length with
  | ':' :: rest => do
    let h ← hostOf rest.reverse
    let p ← portOf scheme digits.reverse
    .ok (h, p)
  | _ => do
    let h ← hostOf place
    .ok (h, none)

/-! ## Path -/

/-- A text with the escapes of points resolved. -/
def pointsResolved : List Char → List Char
  | '%' :: '2' :: 'e' :: cs => '.' :: pointsResolved cs
  | '%' :: '2' :: 'E' :: cs => '.' :: pointsResolved cs
  | c :: cs => c :: pointsResolved cs
  | [] => []

def isPoint (part : List Char) : Bool := pointsResolved part == ['.']

def isDoublePoint (part : List Char) : Bool := pointsResolved part == ['.', '.']

/-- The parts of a path in normal form. A point at the end leaves an empty part. -/
def normalParts (acc : List (List Char)) : List (List Char) → List (List Char)
  | [] => acc
  | part :: parts =>
    let ended := if parts.isEmpty then [[]] else []
    if isDoublePoint part then normalParts (acc.dropLast ++ ended) parts
    else if isPoint part then normalParts (acc ++ ended) parts
    else normalParts (acc ++ [escape escapedInPath part]) parts

/-- The parts between slashes. -/
def splitSlashes : List Char → List (List Char)
  | [] => [[]]
  | c :: cs =>
    if isSlash c then [] :: splitSlashes cs
    else match splitSlashes cs with
      | [] => [[c]]
      | part :: parts => (c :: part) :: parts

/-- The parts of a path as it is written. -/
def pathParts (cs : List Char) : List String :=
  let body := match cs with
    | c :: rest => if isSlash c then rest else cs
    | [] => []
  (normalParts [] (splitSlashes body)).map String.ofList

/-! ## Addresses -/

/-- The text behind a mark, escaped. -/
def behindMark (p : Char → Bool) : List Char → Option String
  | [] => none
  | _ :: cs => some (String.ofList (escape p cs))

/-- What follows the slashes of a scheme that has a default port. -/
def ofRest (scheme : String) (cs : List Char) : Except UrlError Url := do
  let cs := cs.dropWhile isSlash
  let beforeFragment := cs.takeWhile (· != '#')
  let place := beforeFragment.takeWhile (· != '?')
  let authorityText := place.takeWhile (!isSlash ·)
  let (host, port) ← authority scheme authorityText
  .ok {
    scheme := scheme
    host := host
    port := port
    path := pathParts (place.drop authorityText.length)
    query := behindMark escapedInQuery (beforeFragment.drop place.length)
    fragment := behindMark escapedInFragment (cs.drop beforeFragment.length) }

/-- The address that a text writes. An address of another kind of scheme has no parts here. -/
def read (s : String) : Except UrlError Url :=
  match scheme? (cleaned s.toList) with
  | none => .error .relative
  | some (scheme, rest) =>
    if (defaultPorts.lookup scheme).isSome then ofRest scheme rest
    else .ok ⟨scheme, "", none, [String.ofList rest], none, none⟩

/-- The normal form of an address. -/
def text (u : Url) : String :=
  if (defaultPorts.lookup u.scheme).isSome then
    u.scheme ++ "://" ++ u.host ++ (u.port.elim "" fun p => ":" ++ toString p)
      ++ "/" ++ String.intercalate "/" u.path
      ++ (u.query.elim "" ("?" ++ ·)) ++ (u.fragment.elim "" ("#" ++ ·))
  else u.scheme ++ ":" ++ String.intercalate "/" u.path

/-- Addresses that a request can be sent to. -/
def isWeb (u : Url) : Bool := u.scheme == "http" || u.scheme == "https"

end Url

end Tariff
