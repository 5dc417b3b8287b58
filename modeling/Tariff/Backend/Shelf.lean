import Tariff.Backend.Basic
import Tariff.Cache.Basic
import Tariff.Config.Basic
/-
  Tariff.Backend.Shelf — a backend whose answers are used again for some time.

  What the backend answered to a reading is put on a shelf, and while it is good the backend is
  not asked again. Failures are not put there. A version that was appended to a price takes the
  history of that price from the shelf. An answer whose time the clock cannot show halts the
  action, after the backend has answered.
-/

namespace Tariff

/-- Answers that may be used again. -/
structure Shelf where
  /-- The currencies, under one key. -/
  currencies : Cache String (List Currency)
  /-- The histories by price. -/
  histories : Cache String History

namespace Shelf

def empty : Shelf := ⟨.empty, .empty⟩

/-- The key of the currencies. -/
def currenciesKey : String := "currencies"

variable {m : Type → Type} [Monad m] {K V : Type} [DecidableEq K]

/-! ## One cache -/

/-- Look a key up at the time of the clock. -/
def lookUp (clock : m Ticks) (key : K) : Act (StateT (Cache K V) m) (Option V) := do
  let now ← clock
  let (found, cache) := (← get).get now key
  set cache
  return found

/-- Keep a value for a time from now on, if the clock can show its end. -/
def keep (clock : m Ticks) (ttl : Ticks) (key : K) (value : V) :
    Act (StateT (Cache K V) m) Unit := do
  let now ← clock
  match (← get).put? now key value (some ttl) with
  | some cache => set cache
  | none => throw .halt

/-- What is kept under a key, or else what a reading gives, which is then kept. -/
def readThrough (clock : m Ticks) (ttl : Ticks) (key : K) (read : Act m V) :
    Act (StateT (Cache K V) m) V := do
  match ← lookUp clock key with
  | some value => return value
  | none =>
    let value ← read.lift
    keep clock ttl key value
    return value

/-! ## Both caches -/

/-- Act on the cache of currencies. -/
def onCurrencies {α : Type} (act : Act (StateT (Cache String (List Currency)) m) α) :
    Act (StateT Shelf m) α :=
  ExceptT.mk fun shelf => do
    let (result, cache) ← act.run shelf.currencies
    return (result, { shelf with currencies := cache })

/-- Act on the cache of histories. -/
def onHistories {α : Type} (act : Act (StateT (Cache String History) m) α) :
    Act (StateT Shelf m) α :=
  ExceptT.mk fun shelf => do
    let (result, cache) ← act.run shelf.histories
    return (result, { shelf with histories := cache })

end Shelf

/-- The time for which currencies are kept. -/
def CacheConfig.currenciesTicks (c : CacheConfig) : Ticks := c.currenciesTtl * ticksPerSecond

/-- The time for which histories are kept. -/
def CacheConfig.amountsTicks (c : CacheConfig) : Ticks := c.amountsTtl * ticksPerSecond

/-- A backend behind a shelf. -/
def Backend.shelved {m : Type → Type} [Monad m] (b : Backend m) (clock : m Ticks)
    (config : CacheConfig) : Backend (StateT Shelf m) where
  currencies := Shelf.onCurrencies
    (Shelf.readThrough clock config.currenciesTicks Shelf.currenciesKey b.currencies)
  history priceId := Shelf.onHistories
    (Shelf.readThrough clock config.amountsTicks priceId (b.history priceId))
  append priceId new := do
    let version ← (b.append priceId new).lift
    Shelf.onHistories (modify (·.remove priceId))
    return version
  lead := b.lead

end Tariff
