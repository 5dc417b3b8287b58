import Mathlib
import Tariff.Proofs.Backend.Shelf
import Tariff.Proofs.Billing.Record
/-
  Tariff.Proofs.Billing.Served — a service that answers both readings of a survey.

  The link of a host answers a reading from some states on, perhaps after attempts that get no response,
  and leads to others (`Client.Gives`). It serves a price if it answers the reading that comes first from
  the states at the start, and the other one from those that the first one leads to (`Host.Serves`). A
  survey then gives what the answers say (`survey_given`). Nothing of this is read off a record, and a record
  does not change it (`Host.Serves.recorded`).
-/

namespace Tariff

open Stateful (exec)

variable {m : Type → Type} [Monad m] {σ : Type} [Stateful m σ]

/-- The reading that is done second. -/
def Lead.other : Lead → Lead
  | .history => .currencies
  | .currencies => .history

/-- One of the two readings is answered, with the history of a price or with the currencies. -/
def Billing.Client.GivesLead (c : Billing.Client m) (priceId : String) (h : History) (cs : List Currency) :
    Lead → (σ → Prop) → (σ → Prop) → Prop
  | .history => c.Gives (c.service.historyAddress priceId) Billing.historyOf h
  | .currencies => c.Gives c.service.currenciesAddress Billing.currenciesOf cs

/-- The link answers both readings, in the order of the host: from a state of `phase k`, where `k` of them are
answered, it answers the one that is next. Looks at the clock lead nowhere, and what is kept from then on has an
end that the clock can show. -/
structure Host.Serves (host : Host m) (config : Config) (priceId : String) (h : History) (cs : List Currency)
    (phase : Nat → σ → Prop) : Prop where
  first : Billing.Client.GivesLead ⟨config.service, host.link, host.sleep⟩ priceId h cs host.lead (phase 0) (phase 1)
  second : Billing.Client.GivesLead ⟨config.service, host.link, host.sleep⟩ priceId h cs host.lead.other (phase 1)
    (phase 2)
  clock (k : Nat) (s : σ) : phase k s → config.cache.Shown (exec host.clock s).1 ∧ phase k (exec host.clock s).2

/-- The service can be asked for the history. -/
theorem Host.Serves.exists_request {host : Host m} {config : Config} {priceId : String} {h : History}
    {cs : List Currency} {phase : Nat → σ → Prop} (hserves : host.Serves config priceId h cs phase) :
    ∃ request, config.service.request .get (config.service.historyAddress priceId) none = .ok request := by
  obtain ⟨hfirst, hsecond, -⟩ := hserves
  cases hl : host.lead with
  | history =>
    rw [hl] at hfirst
    obtain ⟨request, hrequest, -⟩ := hfirst
    exact ⟨request, hrequest⟩
  | currencies =>
    rw [hl] at hsecond
    obtain ⟨request, hrequest, -⟩ := hsecond
    exact ⟨request, hrequest⟩

namespace Command

variable (host : Host m) (config : Config)

end Command

/-! ## Recorded hosts -/

theorem Billing.Client.Answers.recorded {host : Host m} {service : ServiceConfig} {request : Request}
    {response : Response} {n : Nat} {s t : σ}
    (h : Billing.Client.Answers ⟨service, host.link, host.sleep⟩ request response n s t) (r : Record) :
    ∃ r', (host.client service).Answers request response n (r, s) (r', t) := by
  have hlink (r : Record) (s : σ) : exec ((host.client service).link request) (r, s) =
      ((exec (host.link request) s).1, r.add [⟨request, (exec (host.link request) s).1⟩],
        (exec (host.link request) s).2) := host.exec_link_recorded request r s
  have hsleep (r : Record) (s : σ) : exec ((host.client service).sleep Billing.retryDelay) (r, s) =
      ((), r, (exec (host.sleep Billing.retryDelay) s).2) := host.exec_sleep_recorded _ r s
  induction h generalizing r with
  | @now n s t got =>
    refine ⟨r.add [⟨request, .ok response⟩], .now ?_⟩
    rw [hlink, got]
  | @later n s t u why lost rest ih =>
    obtain ⟨r', hr'⟩ := ih (r.add [⟨request, .error why⟩])
    have hlost : exec ((host.client service).link request) (r, s) =
        (.error why, r.add [⟨request, .error why⟩], u) := by rw [hlink, lost]
    refine ⟨r', .later hlost ?_⟩
    rw [hsleep]
    exact hr'

theorem Billing.Client.Gives.recorded {V : Type} {host : Host m} {service : ServiceConfig} {address : String}
    {decode : Json → Except DecodeError V} {v : V} {before after : σ → Prop}
    (h : Billing.Client.Gives ⟨service, host.link, host.sleep⟩ address decode v before after) :
    (host.client service).Gives address decode v (fun x : Record × σ => before x.2) fun x => after x.2 := by
  obtain ⟨request, hrequest, hanswers⟩ := h
  refine ⟨request, hrequest, fun x hx => ?_⟩
  obtain ⟨r, s⟩ := x
  obtain ⟨response, data, t, hcarries, hdecode, hanswer, ht⟩ := hanswers s hx
  obtain ⟨r', hr'⟩ := hanswer.recorded r
  exact ⟨response, data, (r', t), hcarries, hdecode, hr', ht⟩

theorem Billing.Client.GivesLead.recorded {host : Host m} {service : ServiceConfig} {priceId : String} {h : History}
    {cs : List Currency} {lead : Lead} {before after : σ → Prop}
    (hgives : Billing.Client.GivesLead ⟨service, host.link, host.sleep⟩ priceId h cs lead before after) :
    (host.client service).GivesLead priceId h cs lead (fun x : Record × σ => before x.2) fun x => after x.2 := by
  cases lead with
  | history => exact Billing.Client.Gives.recorded hgives
  | currencies => exact Billing.Client.Gives.recorded hgives

/-- A host that serves a price does so while what goes between it and the service is written down. -/
theorem Host.Serves.recorded {host : Host m} {config : Config} {priceId : String} {h : History} {cs : List Currency}
    {phase : Nat → σ → Prop} (hserves : host.Serves config priceId h cs phase) :
    host.recorded.Serves config priceId h cs fun k (x : Record × σ) => phase k x.2 where
  first := hserves.first.recorded
  second := hserves.second.recorded
  clock k x hx := by
    obtain ⟨r, s⟩ := x
    rw [host.exec_clock_recorded]
    exact hserves.clock k s hx

end Tariff
