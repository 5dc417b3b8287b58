import Tariff.Yaml.Token
import Tariff.Yaml.Flow
import Tariff.Yaml.Block
import Tariff.Yaml.Name
/-
  Tariff.Yaml.Lexer — the tokens of a text.

  What begins a line of a block collection can turn out to be a key only when its colon is met,
  so the token in front of which a key mark may have to be put waits in a queue: a candidate
  for a key holds back the tokens from it on, until its colon is met or it can no longer come
  (a key ends on its line and within 1024 characters). Block collections begin and end by
  indentation; in flow collections indentation does not count.

  `tokens` gives the tokens up to the first mistake; a token that is held back when the mistake
  is met is not given.
-/

namespace Tariff.Yaml

/-- A token that may turn out to begin a key. -/
structure KeyCandidate where
  /-- Nothing else can stand here. -/
  required : Bool
  /-- The number of the token. -/
  number : Nat
  index : Nat
  line : Nat
  column : Nat
  deriving Repr

structure Lexer where
  place : Cursor
  /-- The columns of the open block collections, innermost first. -/
  blocks : List Nat
  /-- The candidate of the block context. -/
  blockKey : Option KeyCandidate
  /-- The candidates of the open flow collections, innermost first. -/
  flowKeys : List (Option KeyCandidate)
  /-- A key may begin here. -/
  keyAllowed : Bool
  /-- The tokens that wait. -/
  queue : List Token
  /-- How many tokens have been given. -/
  taken : Nat
  deriving Repr

namespace Lexer

def start (cs : List Char) : Lexer := ⟨.start cs, [], none, [], true, [], 0⟩

def inFlow (l : Lexer) : Bool := !l.flowKeys.isEmpty

/-- The column of the innermost block collection lies in front of `column`. -/
def indentBefore (l : Lexer) (column : Nat) : Bool := l.blocks.head?.elim true (· < column)

/-- The innermost candidate. -/
def candidate (l : Lexer) : Option KeyCandidate := l.flowKeys.head?.getD l.blockKey

def setCandidate (l : Lexer) (k : Option KeyCandidate) : Lexer :=
  match l.flowKeys with
  | _ :: keys => { l with flowKeys := k :: keys }
  | [] => { l with blockKey := k }

def push (l : Lexer) (t : Token) : Lexer := { l with queue := l.queue ++ [t] }

/-- Put a token in front of token number `n`. -/
def insertAt (l : Lexer) (n : Nat) (t : Token) : Lexer :=
  let k := n - l.taken
  { l with queue := l.queue.take k ++ t :: l.queue.drop k }

/-- The number of the next token. -/
def nextNumber (l : Lexer) : Nat := l.taken + l.queue.length

/-! ## Candidates -/

/-- A key does not reach over its line, and no further than this. -/
def maxKeyLength : Nat := 1024

/-- The colon of a candidate can no longer come. -/
def isStale (l : Lexer) (k : KeyCandidate) : Bool :=
  k.line < l.place.line || k.index + maxKeyLength < l.place.index

/-- Give up a candidate whose colon can no longer come; one that is required may not be given
up. -/
def refreshed (l : Lexer) (k : Option KeyCandidate) : Option (Option KeyCandidate) :=
  match k with
  | some k => if l.isStale k then (if k.required then none else some none) else some (some k)
  | none => some none

def refresh (l : Lexer) : Option Lexer := do
  let blockKey ← l.refreshed l.blockKey
  let flowKeys ← l.flowKeys.mapM l.refreshed
  some { l with blockKey := blockKey, flowKeys := flowKeys }

/-- Drop the innermost candidate, which may not be required. -/
def dropCandidate (l : Lexer) : Option Lexer :=
  if l.candidate.elim false (·.required) then none else some (l.setCandidate none)

/-- What begins here is a candidate, where keys are allowed. -/
def saveCandidate (l : Lexer) : Option Lexer := do
  if !l.keyAllowed then some l
  else
    let required := !l.inFlow && l.blocks.head? == some l.place.column
    let l ← l.dropCandidate
    some (l.setCandidate (some
      ⟨required, l.nextNumber, l.place.index, l.place.line, l.place.column⟩))

/-! ## Indentation -/

/-- Open a block collection at `column` in front of token number `n`, if the column is deeper
than the innermost one. -/
def openBlock (l : Lexer) (column n : Nat) (t : Token) : Lexer :=
  if !l.inFlow && l.indentBefore column then
    { l.insertAt n t with blocks := column :: l.blocks }
  else l

/-- Close the block collections deeper than a column, or all of them. -/
def closeBlocks (l : Lexer) (column : Option Nat) : Lexer :=
  if l.inFlow then l
  else
    let closed := l.blocks.takeWhile fun b => column.elim true (· < b)
    { l with
      blocks := l.blocks.drop closed.length
      queue := l.queue ++ closed.map fun _ => .blockEnd }

/-! ## The next token -/

/-- Pass gaps, comments and line ends. A tab may not stand where a key may begin in a block
context. -/
def passBlank : Nat → Lexer → Lexer
  | 0, l => l
  | fuel + 1, l =>
    let tabs := l.inFlow || !l.keyAllowed
    let place := l.place.skipWhile fun x => x == ' ' || (tabs && x == '\t')
    let place := if place.sees '#' then place.skipWhile (!isLineEnd ·) else place
    if place.atLineEnd then
      passBlank fuel
        { l with place := place.skipLineEnd, keyAllowed := l.keyAllowed || !l.inFlow }
    else { l with place := place }

/-- Take a mark of `n` characters as a token. -/
def mark (l : Lexer) (n : Nat) (keyAllowed : Bool) (t : Token) : Lexer :=
  { l.push t with place := l.place.skip n, keyAllowed := keyAllowed }

def lexEnd (l : Lexer) : Option Lexer := do
  let l ← (l.closeBlocks none).dropCandidate
  some (l.mark 0 false .streamEnd)

def lexDirective (l : Lexer) : Option Lexer := do
  let l ← (l.closeBlocks none).dropCandidate
  let (directive, place) ← directiveScan l.place
  let token : Token := match directive with
    | .version major minor => .versionDirective major minor
    | .tag handle start => .tagDirective handle start
  some { l.push token with place := place, keyAllowed := false }

def lexDocumentMark (l : Lexer) (t : Token) : Option Lexer := do
  let l ← (l.closeBlocks none).dropCandidate
  some (l.mark 3 false t)

def lexFlowStart (l : Lexer) (t : Token) : Option Lexer := do
  let l ← l.saveCandidate
  let l := l.mark 1 true t
  some { l with flowKeys := none :: l.flowKeys }

def lexFlowEnd (l : Lexer) (t : Token) : Option Lexer := do
  let l ← l.dropCandidate
  some ({ l with flowKeys := l.flowKeys.drop 1 }.mark 1 false t)

def lexFlowEntry (l : Lexer) : Option Lexer := do
  let l ← l.dropCandidate
  some (l.mark 1 true .flowEntry)

def lexBlockEntry (l : Lexer) : Option Lexer := do
  if !l.inFlow && !l.keyAllowed then none
  let l ← (l.openBlock l.place.column l.nextNumber .blockSequenceStart).dropCandidate
  some (l.mark 1 true .blockEntry)

def lexKey (l : Lexer) : Option Lexer := do
  if !l.inFlow && !l.keyAllowed then none
  let l ← (l.openBlock l.place.column l.nextNumber .blockMappingStart).dropCandidate
  some (l.mark 1 (!l.inFlow) .key)

/-- A colon: if there is a candidate, it was a key. -/
def lexValue (l : Lexer) : Option Lexer := do
  match l.candidate with
  | some k =>
    let l := (l.insertAt k.number .key).openBlock k.column k.number .blockMappingStart
    some ((l.setCandidate none).mark 1 false .value)
  | none =>
    if !l.inFlow && !l.keyAllowed then none
    let l := l.openBlock l.place.column l.nextNumber .blockMappingStart
    some (l.mark 1 (!l.inFlow) .value)

/-- A token that may begin a key: what `scan` reads. -/
def lexCandidate (l : Lexer) (scan : Cursor → Option (Token × Cursor)) : Option Lexer := do
  let l ← l.saveCandidate
  let (token, place) ← scan l.place
  some { l.push token with place := place, keyAllowed := false }

def lexBlockScalar (l : Lexer) (literal : Bool) : Option Lexer := do
  let l ← l.dropCandidate
  let (cs, place) ← blockScalar literal l.blocks.head? l.place
  let style : ScalarStyle := if literal then .literal else .other
  some { l.push (.scalar (String.ofList cs) style) with place := place, keyAllowed := true }

def lexQuoted (l : Lexer) (single : Bool) : Option Lexer :=
  l.lexCandidate fun c =>
    (quotedScalar single c).map fun (cs, c) => (.scalar (String.ofList cs) .other, c)

def lexPlain (l : Lexer) : Option Lexer := do
  let l ← l.saveCandidate
  let margin := l.blocks.head?.elim 0 (· + 1)
  let (cs, broken, place) ← plainScalar l.inFlow margin l.place
  some { l.push (.scalar (String.ofList cs) .plain) with place := place, keyAllowed := broken }

/-- Marks that cannot begin a plain scalar. -/
def isMark (x : Char) : Bool :=
  ['-', '?', ':', ',', '[', ']', '\x7b', '\x7d', '#', '&', '*', '!', '|', '>', '\'', '\x22', '%',
    '@', '`'].contains x

/-- A plain scalar begins here. -/
def startsPlain (l : Lexer) (x : Char) : Bool :=
  (!isMark x && !l.place.atSpace)
    || (x == '-' && !l.place.holdsAhead 1 isGap)
    || (!l.inFlow && (x == '?' || x == ':') && !l.place.spaceAhead 1)

/-- Read the next token and put it into the queue. -/
def fetch (l : Lexer) : Option Lexer := do
  let l ← (passBlank (l.place.rest.length + 1) l).refresh
  let l := l.closeBlocks (some l.place.column)
  match l.place.next with
  | none => l.lexEnd
  | some x =>
    if l.place.column == 0 && x == '%' then l.lexDirective
    else if l.place.atMark '-' then l.lexDocumentMark .documentStart
    else if l.place.atMark '.' then l.lexDocumentMark .documentEnd
    else if x == '[' then l.lexFlowStart .flowSequenceStart
    else if x == '\x7b' then l.lexFlowStart .flowMappingStart
    else if x == ']' then l.lexFlowEnd .flowSequenceEnd
    else if x == '\x7d' then l.lexFlowEnd .flowMappingEnd
    else if x == ',' then l.lexFlowEntry
    else if x == '-' && l.place.spaceAhead 1 then l.lexBlockEntry
    else if x == '?' && (l.inFlow || l.place.spaceAhead 1) then l.lexKey
    else if x == ':' && (l.inFlow || l.place.spaceAhead 1) then l.lexValue
    else if x == '*' then
      l.lexCandidate fun c => (anchorName c).map fun (name, c) => (.alias name, c)
    else if x == '&' then
      l.lexCandidate fun c => (anchorName c).map fun (name, c) => (.anchor name, c)
    else if x == '!' then
      l.lexCandidate fun c => (tagScan l.inFlow c).map fun (tag, c) => (.tag tag.1 tag.2, c)
    else if x == '|' && !l.inFlow then l.lexBlockScalar true
    else if x == '>' && !l.inFlow then l.lexBlockScalar false
    else if x == '\'' then l.lexQuoted true
    else if x == '\x22' then l.lexQuoted false
    else if l.startsPlain x then l.lexPlain
    else none

/-- The next token in the queue is held back by a candidate. -/
def isHeldBack (l : Lexer) : Bool :=
  (l.blockKey :: l.flowKeys).any fun k => k.elim false (·.number == l.taken)

/-- Fill the queue until its first token can be given. -/
def supply : Nat → Lexer → Option Lexer
  | 0, _ => none
  | fuel + 1, l =>
    if l.queue.isEmpty then do supply fuel (← l.fetch)
    else do
      let l ← l.refresh
      if l.isHeldBack then supply fuel (← l.fetch) else some l

/-- The tokens that are given, up to the end of the text or the first mistake. -/
def given : Nat → Lexer → List Token
  | 0, _ => []
  | fuel + 1, l =>
    match supply (l.place.rest.length + 2) l with
    | none => []
    | some l =>
      match l.queue with
      | [] => []
      | .streamEnd :: _ => [.streamEnd]
      | t :: queue => t :: given fuel { l with queue := queue, taken := l.taken + 1 }

end Lexer

/-! ## The tokens of a text -/

/-- A character that may stand in a text. -/
def isTextChar (c : Char) : Bool :=
  let n := c.toNat
  n == 9 || n == 10 || n == 13 || (0x20 ≤ n && n ≤ 0x7e) || n == 0x85
    || (0xa0 ≤ n && n ≤ 0xfffd && n != 0xfeff) || 0x10000 ≤ n

/-- The text without a byte order mark in front. -/
def withoutMark : List Char → List Char
  | '\ufeff' :: cs => cs
  | cs => cs

/-- The tokens of a text, ended by `streamEnd` if there is no mistake. A character that may not
stand in a text is met before anything else. -/
def tokens (s : String) : List Token :=
  let cs := withoutMark s.toList
  if cs.all isTextChar then Lexer.given (6 * cs.length + 8) (.start cs) else []

end Tariff.Yaml
