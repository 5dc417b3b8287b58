import Tariff.Files.Path
import Tariff.Decode.Error
import Tariff.Billing.Message
/-
  Tariff.Fault — why a command fails.

  A fault has a message and, where something lies behind it, the messages of its causes,
  outermost first. A rendering that has no room, or an instant that the clock cannot show,
  stops a command without a fault.
-/

namespace Tariff

/-- The files that a command reads. -/
inductive FileRole where
  | config
  | input
  deriving DecidableEq, Repr

def FileRole.name : FileRole → String
  | .config => "config"
  | .input => "input"

inductive Fault where
  | unreadable (role : FileRole) (path : String) (why : OsError)
  | undecodable (role : FileRole) (path : String) (why : DecodeError)
  | configExists (path : String)
  | directoryNotMade (path : String) (why : OsError)
  | configNotWritten (path : String) (why : OsError)
  /-- A request got no response. -/
  | unsent (url : String) (why : TransportFault)
  /-- The body of a response cannot be read. -/
  | unread (url : String) (why : List String)
  /-- The service answered with another status than success. -/
  | refused (status : Nat) (url body : String)
  | badAnswer (url body : String) (why : DecodeError)
  | badCurrencies (why : DecodeError)
  | badVersions (priceId : String) (why : DecodeError)
  | missingPrice
  | rejected (reasons : Nat)
  | unconfirmed
  /-- An accepted proposal could not be appended. -/
  | notAdded (why : Fault)
  /-- A backend that is no service says why it failed. -/
  | backend (text : String)
  deriving DecidableEq, Repr

namespace Fault

def message : Fault → String
  | .unreadable role path _ => s!"Failed to read {role.name} file: {path}"
  | .undecodable role path _ => s!"Failed to parse {role.name} file: {path}"
  | .configExists path => s!"Configuration file already exists at {path}"
  | .directoryNotMade path _ => s!"Failed to create directory: {path}"
  | .configNotWritten path _ => s!"Failed to write config file to {path}"
  | .unsent url _ => s!"Failed to send request to {url}"
  | .unread url _ => s!"Failed to get response text from {url}"
  | .refused status url body => s!"Billing API returned {statusText status} for {url}: {body}"
  | .badAnswer url body _ => s!"Failed to parse response from {url}. Response: '{body}'"
  | .badCurrencies _ => "Failed to decode currencies"
  | .badVersions priceId _ => s!"Failed to read amounts for price {priceId}"
  | .missingPrice => "Missing price context."
  | .rejected reasons => s!"Proposal rejected with {reasons} error(s)"
  | .unconfirmed => "Please confirm to continue (pass --yes)."
  | .notAdded _ => "Unable to add price amount"
  | .backend text => text

/-- What lies behind a fault, outermost first. -/
def causes : Fault → List String
  | .unreadable _ _ why => [why.message]
  | .undecodable _ _ why => [why.message .yaml]
  | .directoryNotMade _ why => [why.message]
  | .configNotWritten _ why => [why.message]
  | .unsent _ why => why.causes
  | .unread _ why => why
  | .badAnswer _ _ why => [why.message .json]
  | .badCurrencies why => [why.message .json]
  | .badVersions _ why => ["Failed to decode price amounts", why.message .json]
  | .notAdded why => why.message :: why.causes
  | .configExists _ | .refused .. | .missingPrice | .rejected _ | .unconfirmed | .backend _ => []

end Fault

/-- How a command can end before its end. -/
inductive Stop where
  | fault (why : Fault)
  | halt
  deriving DecidableEq, Repr

/-- An action that may stop. -/
abbrev Act (m : Type → Type) (α : Type) := ExceptT Stop m α

/-- An action without state among actions that have one. -/
def Act.lift {m : Type → Type} [Monad m] {σ α : Type} (act : Act m α) : Act (StateT σ m) α :=
  ExceptT.mk (StateT.lift act.run)

/-- Go on with a result, or stop for the fault that is made of its error. -/
def Act.ofExcept {m : Type → Type} [Monad m] {ε α : Type} (wrap : ε → Fault)
    (r : Except ε α) : Act m α :=
  match r with
  | .ok a => pure a
  | .error e => throw (.fault (wrap e))

/-- Go on with a rendering, or halt where it has no room. -/
def Act.ofOption {m : Type → Type} [Monad m] {α : Type} (r : Option α) : Act m α :=
  match r with
  | some a => pure a
  | none => throw .halt

end Tariff
