import Mathlib
import Tariff.Proofs.Billing.Attempts
import Tariff.Proofs.Billing.Envelope
import Tariff.Proofs.Billing.Record
import Tariff.Proofs.Version.Codec
/-
  Tariff.Proofs.Billing.Answers — readings that are answered with no object.

  A reading that is answered with success comes to what the text of the answer says. A text that is no
  object is refused, unless it is an array of at most one item (`bare_answer_is_refused_unless_single`).
  Such an array passes for an envelope: a single version without one passes for no history, and a
  proposal is accepted that the version itself refuses (`bare_version_passes_for_no_history`).
-/

namespace Tariff

open Stateful (exec)

variable {m : Type → Type} [Monad m] {σ : Type} [Stateful m σ]

namespace Billing

/-! ## Answers without an envelope -/

/-- What comes of an answer that is no object: it is refused, unless it is an array of one item, which
passes for the payload, or of none, which passes for `nothing`. -/
structure ReadBare {V : Type} (address body : String) (decode : Json → Except Stop V) (nothing : V)
    (result : Except Stop V) : Prop where
  refused : (∀ items, JsonDraft.readValue? body = some (.array items) → 2 ≤ items.length) →
    ∃ why, result = .error (.fault (.badAnswer address body why))
  empty : JsonDraft.readValue? body = some (.array []) → result = .ok nothing
  single : ∀ data, JsonDraft.readValue? body = some (.array [data]) → result = decode data

theorem readBare_of_not_isObject {V : Type} {address body : String} {decode : Json → Except Stop V} {nothing : V}
    (hnull : decode .null = .ok nothing) (h : ¬ IsObject body) :
    ReadBare address body decode nothing ((Client.payloadFrom address body).bind decode) := by
  have hpayload : ∀ {data}, readPayload body = .ok data → (Client.payloadFrom address body).bind decode = decode data :=
    fun hx => by simp [Client.payloadFrom, hx, Except.mapError, Except.bind]
  refine ⟨fun hlong => ?_, fun hempty => ?_, fun data hsingle => ?_⟩
  · cases hx : readPayload body with
    | error why => exact ⟨why, by simp [Client.payloadFrom, hx, Except.mapError, Except.bind]⟩
    | ok data =>
      rcases readPayload_eq_ok_iff.1 hx with hwraps | ⟨hempty, -⟩ | hsingle
      · exact absurd hwraps.isObject h
      · exact absurd (hlong _ hempty) (by simp)
      · exact absurd (hlong _ hsingle) (by simp)
  · rw [hpayload (readPayload_eq_ok_iff.2 (.inr (.inl ⟨hempty, rfl⟩))), hnull]
  · exact hpayload (readPayload_eq_ok_iff.2 (.inr (.inr hsingle)))

theorem not_isObject_of_array {body : String} (h : (JsonDraft.readValue? body).any Json.isArray = true) :
    ¬ IsObject body := by
  intro hobject
  obtain ⟨members, htext, -⟩ := hobject
  rw [JsonDraft.readValue?, htext] at h
  simp [JsonDraft.valueWithin?, JsonDraft.maxLevels, Option.any_map, Json.isArray] at h

/-- A reading whose request is answered with success, perhaps after attempts that got no response, and with a
text that is no object: it is refused by both readings, unless the text is an array of at most one item. -/
theorem bare_answer_is_refused_unless_single (c : Client m) {request : Request} {response : Response}
    {text : String} {s t : σ} (hanswer : c.Answers request response retries s t) (htext : response.Brings text)
    (hbare : ¬ IsObject text) :
    (∀ priceId, c.service.request .get (c.service.historyAddress priceId) none = .ok request →
      ReadBare (c.service.historyAddress priceId) text
        (fun data => (historyOf data).mapError (.fault ∘ .badVersions priceId)) []
        ((c.backend.history priceId).exec s).1) ∧
      (c.service.request .get c.service.currenciesAddress none = .ok request →
        ReadBare c.service.currenciesAddress text
          (fun data => (currenciesOf data).mapError (.fault ∘ .badCurrencies)) [] (c.backend.currencies.exec s).1) := by
  refine ⟨fun priceId hrequest => ?_, fun hrequest => ?_⟩
  · rw [hanswer.exec_history hrequest htext]
    exact readBare_of_not_isObject rfl hbare
  · rw [hanswer.exec_currencies hrequest htext]
    exact readBare_of_not_isObject rfl hbare

/-! ### A service that forgets the envelope -/

namespace Bare

/-- A host with a service that answers everything with this text, over a link that is down at first. -/
def host (body : String) : Host (StateM Nat) where
  disk := ⟨fun _ => pure (.error .notFound), fun _ => pure false, fun _ => pure (.ok ()), fun _ _ => pure (.ok ())⟩
  link := Link.faltering fun _ => ⟨200, .ok body⟩
  sleep _ := pure ()
  clock := pure 0
  today := pure Instant.epoch

def service : ServiceConfig := ⟨"http://localhost", none⟩

def client (body : String) : Client (StateM Nat) := ⟨service, (host body).link, (host body).sleep⟩

/-- A version. -/
def version : String :=
  "\x7b\"id\":\"amount_1\",\"currency\":\"USD\",\"amount\":10,\"effective_from\":\"2024-06-01T00:00:00Z\"\x7d"

/-- One version, without the envelope. -/
def row : String := "[" ++ version ++ "]"

/-- Two of them. -/
def rows : String := "[" ++ version ++ "," ++ version ++ "]"

/-- The one version in the envelope. -/
def wrapped : String := "\x7b\"data\":" ++ row ++ "\x7d"

/-- A proposal that does not start after the version. -/
def proposal : Proposal := ⟨"USD", "10", "2024-06-01"⟩

def dollars : List Currency := [⟨"USD", "US Dollar", some "$", some 2⟩]

/-- The history of the price can be asked for. -/
theorem exists_request :
    ∃ request, service.request .get (service.historyAddress "price_1") none = .ok request := by
  have hsent : (service.request .get (service.historyAddress "price_1") none).isOk = true := by decide +kernel
  cases hrequest : service.request .get (service.historyAddress "price_1") none with
  | error why => simp [hrequest, Except.isOk, Except.toBool] at hsent
  | ok request => exact ⟨request, rfl⟩

/-- What a reading comes to, and the record that it leaves. -/
def reading (body : String) : Except Stop History × Record × Nat :=
  (((host body).client service).backend.history "price_1").exec (Record.empty, 0)

end Bare

open Bare in
/-- Two versions without the envelope are refused, here after three requests that got no response. -/
theorem bare_versions_are_refused :
    ¬ IsObject rows ∧ ∃ why, (((client rows).backend.history "price_1").exec 3).1 =
      .error (.fault (.badAnswer "http://localhost/prices/price_1/amounts" rows why)) := by
  have hbare : ¬ IsObject rows := not_isObject_of_array (by decide +kernel)
  have hlength : ((JsonDraft.readValue? rows).bind fun v => (historyOf v).toOption).map List.length = some 2 := by
    decide +kernel
  obtain ⟨request, hrequest⟩ := exists_request
  obtain ⟨hhistory, -⟩ := bare_answer_is_refused_unless_single (client rows)
    (Link.faltering_answers request (Nat.le_refl retries)) ⟨rfl, rfl⟩ hbare
  refine ⟨hbare, (hhistory "price_1" hrequest).refused fun items hitems => ?_⟩
  rw [hitems, Option.bind_some] at hlength
  cases hread : historyOf (.array items) with
  | error why => simp [hread, Except.toOption] at hlength
  | ok vs =>
    have hall := (Json.decodeValue_list_eq_ok_iff Version.levelFree_decode).1 hread
    have htwo : vs.length = 2 := by simpa [hread, Except.toOption] using hlength
    rw [hall.length_eq, htwo]

open Bare in
/-- A single version without the envelope passes for no history. Against that a proposal is accepted
that the version itself refuses. -/
theorem bare_version_passes_for_no_history :
    ¬ IsObject row ∧
      (∃ e ∈ (reading row).2.1.exchanges, ∃ response, e.answer = .ok response ∧ response.Brings row) ∧
      (reading row).1 = .ok [] ∧
      (∃ a, proposal.validate dollars [] Instant.epoch = .ok a) ∧
      ∃ h rs, (reading wrapped).1 = .ok h ∧ proposal.validate dollars h Instant.epoch = .error rs := by
  have hshape : (JsonDraft.readValue? row).any Json.isArray = true := by decide +kernel
  have hanswers : (reading row).2.1.exchanges.map (·.answer) = [.ok ⟨200, .ok row⟩] := by decide +kernel
  have haccepted : (proposal.validate dollars [] Instant.epoch).isOk = true := by decide +kernel
  have hrefused : ((reading wrapped).1.toOption.map fun h => (proposal.validate dollars h Instant.epoch).isOk) =
      some false := by decide +kernel
  refine ⟨not_isObject_of_array hshape, ?_, by decide +kernel, ?_, ?_⟩
  · obtain ⟨e, he, hgot⟩ := List.mem_map.1 (hanswers ▸ List.mem_singleton_self (Except.ok (Response.mk 200 (.ok row))))
    exact ⟨e, he, ⟨200, .ok row⟩, hgot, rfl, rfl⟩
  · cases hv : proposal.validate dollars [] Instant.epoch with
    | error rs => simp [hv, Except.isOk, Except.toBool] at haccepted
    | ok a => exact ⟨a, rfl⟩
  · cases hr : (reading wrapped).1 with
    | error why => simp [hr, Except.toOption] at hrefused
    | ok h =>
      cases hv : proposal.validate dollars h Instant.epoch with
      | ok a => simp [hr, hv, Except.toOption, Except.isOk, Except.toBool] at hrefused
      | error rs => exact ⟨h, rs, rfl, hv⟩

end Billing

end Tariff
