/-
  Tariff.Yaml.Cursor — a place in a text, and the characters that matter there.

  A line ends with a carriage return, a line feed or both, or with one of three Unicode line
  ends. Positions are counted in characters.
-/

namespace Tariff.Yaml

def isLineEnd (c : Char) : Bool :=
  c == '\n' || c == '\r' || c == '\u0085' || c == '\u2028' || c == '\u2029'

/-- A space or a tab. -/
def isGap (c : Char) : Bool := c == ' ' || c == '\t'

/-- A character of a name: a letter or digit of ASCII, a line or a dash. -/
def isNameChar (c : Char) : Bool := c.isAlphanum || c == '_' || c == '-'

/-- A place in a text. -/
structure Cursor where
  rest : List Char
  index : Nat
  line : Nat
  column : Nat
  deriving Repr

namespace Cursor

def start (cs : List Char) : Cursor := ⟨cs, 0, 0, 0⟩

/-- The character `n` places on. -/
def ahead (c : Cursor) (n : Nat) : Option Char := c.rest[n]?

/-- The next character. -/
def next (c : Cursor) : Option Char := c.rest.head?

def atEnd (c : Cursor) : Bool := c.rest.isEmpty

/-- The next character is `x`. -/
def sees (c : Cursor) (x : Char) : Bool := c.next == some x

/-- The character `n` places on satisfies `p`. -/
def holdsAhead (c : Cursor) (n : Nat) (p : Char → Bool) : Bool := (c.ahead n).elim false p

def atLineEnd (c : Cursor) : Bool := c.holdsAhead 0 isLineEnd

def atGap (c : Cursor) : Bool := c.holdsAhead 0 isGap

/-- A gap, a line end or the end of the text is `n` places on. -/
def spaceAhead (c : Cursor) (n : Nat) : Bool :=
  (c.ahead n).elim true fun x => isGap x || isLineEnd x

def atSpace (c : Cursor) : Bool := c.spaceAhead 0

/-- A line end or the end of the text. -/
def atLineStop (c : Cursor) : Bool := c.atEnd || c.atLineEnd

/-- Pass `n` characters of the line. -/
def skip (c : Cursor) (n : Nat) : Cursor :=
  let n := min n c.rest.length
  ⟨c.rest.drop n, c.index + n, c.line, c.column + n⟩

/-- Pass a line end; it is read as a line feed, the Unicode line and paragraph separators as
themselves. Elsewhere nothing is passed. -/
def takeLineEnd (c : Cursor) : List Char × Cursor :=
  match c.rest with
  | '\r' :: '\n' :: cs => (['\n'], ⟨cs, c.index + 2, c.line + 1, 0⟩)
  | x :: cs =>
    if isLineEnd x then
      let read := if x == '\u2028' || x == '\u2029' then x else '\n'
      ([read], ⟨cs, c.index + 1, c.line + 1, 0⟩)
    else ([], c)
  | [] => ([], c)

def skipLineEnd (c : Cursor) : Cursor := c.takeLineEnd.2

/-- The characters up to the first that does not satisfy `p`, and the place behind them. -/
def takeWhile (c : Cursor) (p : Char → Bool) : List Char × Cursor :=
  let taken := c.rest.takeWhile p
  (taken, c.skip taken.length)

def skipWhile (c : Cursor) (p : Char → Bool) : Cursor := (c.takeWhile p).2

/-- Three dashes or points that begin a line and stand alone. -/
def atMark (c : Cursor) (x : Char) : Bool :=
  c.column == 0 && c.ahead 0 == some x && c.ahead 1 == some x && c.ahead 2 == some x
    && c.spaceAhead 3

/-- The line begins with a document mark. -/
def atDocumentMark (c : Cursor) : Bool := c.atMark '-' || c.atMark '.'

end Cursor

end Tariff.Yaml
