import Tariff.Backend.Basic
/-
  Tariff.Backend.Store — a backend in memory.

  The store counts how often it is asked, remembers what it was asked to append, and can be
  told to fail. A version that is appended gets an identifier that tells how many were appended
  so far, and has no end.
-/

namespace Tariff

/-- What a backend can be asked. -/
inductive Ask where
  | currencies
  | history
  | append
  deriving DecidableEq, Repr

/-- Currencies and histories in memory. -/
structure Store where
  currencies : List Currency
  /-- The histories by price; a price without one has no versions. -/
  prices : List (String × History)
  /-- Why the asks that fail now do so. -/
  failing : List (Ask × String)
  /-- All that was asked, oldest first. -/
  asked : List Ask
  /-- All that was asked to be appended, oldest first. -/
  orders : List NewVersion
  /-- How many versions were appended. -/
  appended : Nat

namespace Store

def ofData (currencies : List Currency) (prices : List (String × History)) : Store :=
  ⟨currencies, prices, [], [], [], 0⟩

/-- The versions of a price. -/
def historyOf (s : Store) (priceId : String) : History := (s.prices.lookup priceId).getD []

/-- Replace the versions of a price. -/
def setHistory (s : Store) (priceId : String) (h : History) : Store :=
  { s with prices := (priceId, h) :: s.prices.filter (·.1 ≠ priceId) }

/-- How often something was asked. -/
def timesAsked (s : Store) (ask : Ask) : Nat := s.asked.count ask

/-- The version that comes of an order. -/
def versionOf (s : Store) (priceId : String) (new : NewVersion) : Version where
  id := s!"new_{s.appended + 1}"
  priceId := some priceId
  currency := new.currency
  amount := new.amount
  effectiveFrom := new.effectiveFrom
  effectiveTo := none

/-- Append a version to a price. -/
def append (s : Store) (priceId : String) (new : NewVersion) : Store :=
  { s.setHistory priceId (s.historyOf priceId ++ [s.versionOf priceId new]) with
    appended := s.appended + 1 }

/-- Note that something is asked; it fails if it is told to. -/
def answer {m : Type → Type} [Monad m] (ask : Ask) : Act (StateT Store m) Unit := do
  modify fun s => { s with asked := s.asked ++ [ask] }
  match (← get).failing.lookup ask with
  | some text => throw (.fault (.backend text))
  | none => pure ()

/-- The store as a backend. -/
def backend {m : Type → Type} [Monad m] : Backend (StateT Store m) where
  currencies := do
    answer .currencies
    return (← get).currencies
  history priceId := do
    answer .history
    return (← get).historyOf priceId
  append priceId new := do
    modify fun s => { s with orders := s.orders ++ [new] }
    answer .append
    let s ← get
    set (s.append priceId new)
    return s.versionOf priceId new
  lead := .history

end Store

end Tariff
