import Tariff.Version.Basic
import Tariff.Text.Upper
/-
  Tariff.Version.History — what follows from the versions of a price.

  Versions of one currency belong together. Where counts and latest starts are listed per
  currency, the currency goes by its trimmed code in upper case, and the list is in the order
  of these codes.
-/

namespace Tariff

/-- The versions of one price, in the order in which they were appended. -/
abbrev History := List Version

namespace History

/-- The latest start among the versions in a currency. -/
def latestStart? (h : History) (code : String) : Option Instant :=
  Instant.latest? ((h.filter (·.isIn code)).map (·.effectiveFrom))

/-- The versions from the latest start to the earliest; versions of one start keep their
order. -/
def newestFirst (h : History) : History :=
  h.mergeSort fun a b => b.effectiveFrom ≤ a.effectiveFrom

/-- The code that a version is listed under. -/
def listedCode (v : Version) : String := Text.upper (Text.trim v.currency)

/-- Put a code into a strictly increasing list of codes. -/
def insertCode (code : String) : List String → List String
  | [] => [code]
  | c :: cs => if code < c then code :: c :: cs else if code = c then c :: cs
    else c :: insertCode code cs

/-- The codes of versions in increasing order, each one once. -/
def listedCodes (h : History) : List String :=
  h.foldr (fun v codes => insertCode (listedCode v) codes) []

/-- The versions that are active at an instant. -/
def activeAt (h : History) (now : Instant) : History := h.filter (·.statusAt now = .active)

/-- How many versions are active per listed code. -/
def activeCounts (h : History) (now : Instant) : List (String × Nat) :=
  let active := h.activeAt now
  active.listedCodes.map fun code => (code, active.countP (listedCode · = code))

/-- The listed codes with more than one active version. -/
def multipleActive (h : History) (now : Instant) : List String :=
  ((h.activeCounts now).filter (1 < ·.2)).map (·.1)

end History

end Tariff
