import Tariff.Decode.Source
import Tariff.Json.Value
/-
  Tariff.Config.Basic — the configuration: where the billing service is, and for how many
  seconds what it answered may be used again.
-/

namespace Tariff

/-- The billing service. -/
structure ServiceConfig where
  baseUrl : String
  apiKey : Option String
  deriving DecidableEq, Repr

/-- Seconds for which answers are kept. -/
structure CacheConfig where
  currenciesTtl : Nat
  amountsTtl : Nat
  deriving DecidableEq, Repr

structure Config where
  service : ServiceConfig
  cache : CacheConfig
  deriving DecidableEq, Repr

namespace ServiceConfig

/-- A service under construction. -/
structure Partial where
  baseUrl : Option String
  apiKey : Option (Option String)

def fields {δ : Type} [Source δ] : List (Field δ Partial) :=
  [.required "base_url" (·.baseUrl) (fun v s => { s with baseUrl := some v }) Source.string,
   .defaulted "api_key" (·.apiKey) (fun v s => { s with apiKey := some v })
     (Source.optional Source.string)]

def decode {δ : Type} [Source δ] (d : δ) : Except DecodeError ServiceConfig := do
  let s ← Field.fill "ApiConfig" fields ⟨none, none⟩ d
  .ok ⟨← held "base_url" s.baseUrl, s.apiKey.join⟩

def toJson (c : ServiceConfig) : Json :=
  .object [("base_url", .string c.baseUrl), ("api_key", .ofText? c.apiKey)]

end ServiceConfig

namespace CacheConfig

def default : CacheConfig := ⟨300, 30⟩

/-- A cache configuration under construction. -/
structure Partial where
  currenciesTtl : Option Nat
  amountsTtl : Option Nat

def fields {δ : Type} [Source δ] : List (Field δ Partial) :=
  [.defaulted "currencies_ttl_secs" (·.currenciesTtl)
     (fun v s => { s with currenciesTtl := some v }) (Source.natural 64),
   .defaulted "amounts_ttl_secs" (·.amountsTtl)
     (fun v s => { s with amountsTtl := some v }) (Source.natural 64)]

def decode {δ : Type} [Source δ] (d : δ) : Except DecodeError CacheConfig := do
  let s ← Field.fill "CacheConfig" fields ⟨none, none⟩ d
  .ok ⟨s.currenciesTtl.getD default.currenciesTtl, s.amountsTtl.getD default.amountsTtl⟩

def toJson (c : CacheConfig) : Json :=
  .object [("currencies_ttl_secs", .ofNat c.currenciesTtl),
    ("amounts_ttl_secs", .ofNat c.amountsTtl)]

end CacheConfig

namespace Config

/-- A configuration under construction. -/
structure Partial where
  service : Option ServiceConfig
  cache : Option CacheConfig

def fields {δ : Type} [Source δ] : List (Field δ Partial) :=
  [.required "api" (·.service) (fun v s => { s with service := some v }) ServiceConfig.decode,
   .defaulted "cache" (·.cache) (fun v s => { s with cache := some v }) CacheConfig.decode]

def decode {δ : Type} [Source δ] (d : δ) : Except DecodeError Config := do
  let s ← Field.fill "AppConfig" fields ⟨none, none⟩ d
  .ok ⟨← held "api" s.service, s.cache.getD .default⟩

def toJson (c : Config) : Json :=
  .object [("api", c.service.toJson), ("cache", c.cache.toJson)]

end Config

end Tariff
