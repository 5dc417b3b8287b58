import Tariff.CommandLine.Help
import Tariff.Command.Run
import Tariff.Instant.Typed
/-
  Tariff.CommandLine.Reader — what a command line asks for.

  Words are read from left to right. A switch that takes a value waits for it, and the value is
  judged when the next switch or word of its level is met, or at the end; a value that is joined
  to its switch is judged at once. Behind two dashes every word stands for itself. The first
  mistake is the one that is reported; what is missing is noticed at the end.
-/

namespace Tariff

/-- What a command line asks for. -/
inductive Order where
  | help (topic : HelpTopic)
  | version
  /-- Run a command, with the configuration in the chosen file. -/
  | run (chosen : Option String) (command : Command)
  deriving DecidableEq, Repr

/-- Why a command line cannot be read. -/
inductive UsageError where
  | unknownVerb (word : String)
  | unexpected (word : String)
  | missingValue (s : Switch)
  | surplusValue (s : Switch) (value : String)
  | repeated (s : Switch)
  | badInstant (s : Switch) (value : String)
  | missingArguments
  deriving DecidableEq, Repr

def UsageError.message : UsageError → String
  | .unknownVerb word => s!"unrecognized subcommand '{word}'"
  | .unexpected word => s!"unexpected argument '{word}' found"
  | .missingValue s => s!"a value is required for '{s.usage}' but none was supplied"
  | .surplusValue s value =>
    s!"unexpected value '{value}' for '{s.usage}' found; no more were accepted"
  | .repeated s => s!"the argument '{s.usage}' cannot be used multiple times"
  | .badInstant s value =>
    s!"invalid value '{value}' for '{s.usage}': invalid timestamp: {value}"
  | .missingArguments => "the following required arguments were not provided:"

namespace CommandLine

/-- How reading can end before the end. -/
inductive Ending where
  | order (o : Order)
  | wrong (e : UsageError)

abbrev Reading (α : Type) := Except Ending α

def wrong {α : Type} (e : UsageError) : Reading α := .error (.wrong e)

/-! ## What is given at a level -/

/-- The values that a level has so far. -/
structure Given where
  verbose : Bool
  configPath : Option String
  file : Option String
  now : Option Instant
  currency : Option String
  amount : Option String
  effectiveFrom : Option String
  yes : Bool
  priceId : Option String

namespace Given

def nothing : Given := ⟨false, none, none, none, none, none, none, false, none⟩

/-- A switch was met before. -/
def has (g : Given) : Switch → Bool
  | .verbose => g.verbose
  | .configPath => g.configPath.isSome
  | .file => g.file.isSome
  | .now => g.now.isSome
  | .currency => g.currency.isSome
  | .amount => g.amount.isSome
  | .effectiveFrom => g.effectiveFrom.isSome
  | .yes => g.yes
  | .help | .version => false

/-- Take in a switch with its value. -/
def take (g : Given) (s : Switch) (value : String) : Reading Given :=
  if g.has s then wrong (.repeated s)
  else match s with
    | .verbose => .ok { g with verbose := true }
    | .configPath => .ok { g with configPath := some value }
    | .file =>
      if value.isEmpty then wrong (.missingValue s) else .ok { g with file := some value }
    | .now =>
      match Instant.readTyped? value with
      | some t => .ok { g with now := some t }
      | none => wrong (.badInstant s value)
    | .currency => .ok { g with currency := some value }
    | .amount => .ok { g with amount := some value }
    | .effectiveFrom => .ok { g with effectiveFrom := some value }
    | .yes => .ok { g with yes := true }
    | .help | .version => .ok g

end Given

/-! ## Words -/

/-- A level while it is read. -/
structure Level where
  scope : Scope
  given : Given
  /-- The last switch that takes a value, and its value unless it waits for it. -/
  pending : Option (Switch × Option String)
  /-- Two dashes were met. -/
  escaped : Bool

namespace Level

def start (scope : Scope) : Level := ⟨scope, .nothing, none, false⟩

/-- The next word is the value of a switch. -/
def isWaiting (l : Level) : Bool :=
  match l.pending with
  | some (_, none) => true
  | _ => false

/-- Judge the value of the last switch. -/
def settle (l : Level) : Reading Level :=
  match l.pending with
  | none => .ok l
  | some (s, none) => wrong (.missingValue s)
  | some (s, some value) => do
    let given ← l.given.take s value
    .ok { l with given := given, pending := none }

/-- Take in a switch with a value that is joined to it. -/
def takeJoined (l : Level) (s : Switch) (value : String) : Reading Level := do
  let l ← l.settle
  let given ← l.given.take s value
  .ok { l with given := given }

/-- Take in a switch that waits for its value. -/
def await (l : Level) (s : Switch) : Reading Level := do
  let l ← l.settle
  .ok { l with pending := some (s, none) }

/-- Take in a switch without a value. -/
def takeFlag (l : Level) (s : Switch) : Reading Level := do
  let l ← l.settle
  match s with
  | .help => .error (.order (.help (.scope l.scope)))
  | .version => .error (.order .version)
  | _ => do
    let given ← l.given.take s ""
    .ok { l with given := given }

/-- Take in a switch written out, the dashes before it left out. -/
def takeLong (l : Level) (word : List Char) : Reading Level :=
  let name := word.takeWhile (· != '=')
  let joined := match word.drop name.length with
    | _ :: value => some (String.ofList value)
    | [] => none
  match l.scope.long? (String.ofList name), joined with
  | none, _ => wrong (.unexpected ("--" ++ String.ofList name))
  | some s, some value =>
    if s.value?.isSome then l.takeJoined s value else wrong (.surplusValue s value)
  | some s, none => if s.value?.isSome then l.await s else l.takeFlag s

/-- Take in switches written as letters, the dash before them left out. What follows the letter
of a switch that takes a value is its value. -/
def takeLetters (l : Level) : List Char → Reading Level
  | [] => .ok l
  | c :: cs =>
    match l.scope.short? c with
    | none => wrong (.unexpected (String.ofList ['-', c]))
    | some s =>
      if s.value?.isSome then
        match cs with
        | [] => l.await s
        | '=' :: value => l.takeJoined s (String.ofList value)
        | value => l.takeJoined s (String.ofList value)
      else do
        let l ← l.takeFlag s
        l.takeLetters cs

/-- Take in a word that is no switch. -/
def takeWord (l : Level) (word : String) : Reading Level :=
  match l.scope with
  | some v =>
    if v.takesPrice && l.given.priceId.isNone then do
      let l ← l.settle
      .ok { l with given := { l.given with priceId := some word } }
    else wrong (.unexpected word)
  | none =>
    if l.escaped && (word == helpWord || (Verb.ofName? word).isSome) then
      wrong (.unexpected word)
    else wrong (.unknownVerb word)

/-- Take in a word. -/
def step (l : Level) (word : String) : Reading Level :=
  if l.escaped then l.takeWord word
  else match word.toList with
    | ['-', '-'] => .ok { l with escaped := true }
    | '-' :: '-' :: name => l.takeLong name
    | '-' :: c :: cs => l.takeLetters (c :: cs)
    | _ =>
      match l.pending with
      | some (s, none) => .ok { l with pending := some (s, some word) }
      | _ => l.takeWord word

end Level

/-! ## Command lines -/

/-- Something that must be given. -/
def required {α : Type} (found : Option α) : Reading α :=
  match found with
  | some a => .ok a
  | none => wrong .missingArguments

/-- The command that a verb stands for. -/
def commandOf (v : Verb) (g : Given) : Reading Command :=
  match v with
  | .setup => .ok .setup
  | .check => do .ok (.check (← required g.file) g.now)
  | .currencies => .ok .currencies
  | .amounts => do .ok (.history (← required g.priceId) g.now)
  | .add => do
    let proposal : Proposal :=
      ⟨← required g.currency, ← required g.amount, ← required g.effectiveFrom⟩
    .ok (.add (← required g.priceId) proposal g.yes g.now)

/-- The page that is asked for by the words behind the word for help. -/
def helpOn : List String → Reading HelpTopic
  | [] => .ok (.scope none)
  | word :: words =>
    let topic : Option HelpTopic :=
      if word == helpWord then some .help else (Verb.ofName? word).map fun v => .scope (some v)
    match topic, words with
    | none, _ => wrong (.unknownVerb word)
    | some topic, [] => .ok topic
    | some _, next :: _ => wrong (.unknownVerb next)

/-- Read the words behind a verb; `outer` is the level of the program. -/
def readVerb (outer : Level) (v : Verb) (words : List String) : Reading Order := do
  let l ← words.foldlM Level.step (Level.start (some v))
  let l ← l.settle
  let command ← commandOf v l.given
  let outer ← outer.settle
  .ok (.run (l.given.configPath.or outer.given.configPath) command)

/-- Read the words of a program. Without a verb it shows how it is used. -/
def readProgram (l : Level) : List String → Reading Order
  | [] => do
    discard l.settle
    .ok (.help (.scope none))
  | word :: words =>
    if l.escaped || l.isWaiting then do
      let l ← l.step word
      readProgram l words
    else if word == helpWord then do
      .ok (.help (← helpOn words))
    else match Verb.ofName? word with
      | some v => readVerb l v words
      | none => do
        let l ← l.step word
        readProgram l words

/-- Read a command line. -/
def read (words : List String) : Except UsageError Order :=
  match readProgram (.start none) words with
  | .ok order => .ok order
  | .error (.order order) => .ok order
  | .error (.wrong e) => .error e

end CommandLine

end Tariff
