/-
  Tariff.CommandLine.Switch — the words and switches of the command line.

  A command line is read at two levels: switches of the whole program, and behind a verb the
  switches of that verb. Two switches are known at both levels.
-/

namespace Tariff

/-- What can be done. -/
inductive Verb where
  | setup
  | check
  | currencies
  | amounts
  | add
  deriving DecidableEq, Repr

/-- A level of the command line: the whole program or a verb. -/
abbrev Scope := Option Verb

inductive Switch where
  | verbose
  | configPath
  | help
  | version
  | file
  | now
  | currency
  | amount
  | effectiveFrom
  | yes
  deriving DecidableEq, Repr

namespace Verb

def all : List Verb := [.setup, .check, .currencies, .amounts, .add]

def name : Verb → String
  | .setup => "setup"
  | .check => "check"
  | .currencies => "currencies"
  | .amounts => "amounts"
  | .add => "add"

def about : Verb → String
  | .setup => "Create default configuration"
  | .check => "Validate a proposal from a file without contacting the Billing API"
  | .currencies => "List supported currencies"
  | .amounts => "Show the amount history of a price"
  | .add => "Append a new amount version to a price"

/-- The verb is followed by a price. -/
def takesPrice : Verb → Bool
  | .amounts | .add => true
  | .setup | .check | .currencies => false

/-- A verb by its name. -/
def ofName? (name : String) : Option Verb := all.find? (·.name == name)

end Verb

/-- The word that asks for help. -/
def helpWord : String := "help"

namespace Switch

def short? : Switch → Option Char
  | .verbose => some 'v'
  | .configPath => some 'c'
  | .help => some 'h'
  | .version => some 'V'
  | .file => some 'f'
  | .yes => some 'y'
  | .now | .currency | .amount | .effectiveFrom => none

def long : Switch → String
  | .verbose => "verbose"
  | .configPath => "config-path"
  | .help => "help"
  | .version => "version"
  | .file => "file"
  | .now => "now"
  | .currency => "currency"
  | .amount => "amount"
  | .effectiveFrom => "effective-from"
  | .yes => "yes"

/-- What the value of a switch is called, if it takes one. -/
def value? : Switch → Option String
  | .configPath => some "CONFIG_PATH"
  | .file => some "FILE"
  | .now => some "NOW"
  | .currency => some "CURRENCY"
  | .amount => some "AMOUNT"
  | .effectiveFrom => some "EFFECTIVE_FROM"
  | .verbose | .help | .version | .yes => none

/-- A command line that knows the switch must have it. -/
def isRequired : Switch → Bool
  | .file | .currency | .amount | .effectiveFrom => true
  | .verbose | .configPath | .help | .version | .now | .yes => false

/-- How a switch is written with its value. -/
def usage (s : Switch) : String := "--" ++ s.long ++ s.value?.elim "" fun v => " <" ++ v ++ ">"

end Switch

/-- The switches of a level, in the order in which help lists them. -/
def Scope.switches : Scope → List Switch
  | none => [.verbose, .configPath, .help, .version]
  | some .setup => [.verbose, .configPath, .help]
  | some .check => [.file, .verbose, .configPath, .now, .help]
  | some .currencies => [.verbose, .configPath, .help]
  | some .amounts => [.now, .verbose, .configPath, .help]
  | some .add =>
    [.currency, .verbose, .amount, .configPath, .effectiveFrom, .yes, .now, .help]

/-- The switch of a level that is written with this word. -/
def Scope.long? (scope : Scope) (word : String) : Option Switch :=
  scope.switches.find? (·.long == word)

/-- The switch of a level that is written with this letter. -/
def Scope.short? (scope : Scope) (letter : Char) : Option Switch :=
  scope.switches.find? (·.short? == some letter)

end Tariff
