import Mathlib
import Tariff.Billing.Client
import Tariff.Proofs.Action.Exec
/-
  Tariff.Proofs.Billing.Attempts — requests that are answered in the end.

  A request that reads is sent again while it gets no response. From a state, it gets this response if it
  does so now, or if it gets none now and gets it from the state behind the pause (`Answers`). What is read
  is then what the response says, whatever came of the attempts before it: the payload
  (`Answers.exec_payload`), and what is decoded from the payload (`Answers.exec_history`,
  `Answers.exec_currencies`).
-/

namespace Tariff

open Stateful (exec)

/-! ## Responses -/

namespace Response

/-- The response says success, and this is the text of its body. -/
structure Brings (r : Response) (text : String) : Prop where
  success : r.isSuccess = true
  body : r.body = .ok text

/-- The response says success, and its text holds this payload. -/
def Carries (r : Response) (data : Json) : Prop := ∃ text, r.Brings text ∧ Billing.readPayload text = .ok data

theorem Brings.unique {r : Response} {text text' : String} (h : r.Brings text) (h' : r.Brings text') :
    text = text' := Except.ok.inj (h.body.symm.trans h'.body)

theorem Carries.unique {r : Response} {data data' : Json} (h : r.Carries data) (h' : r.Carries data') :
    data = data' := by
  obtain ⟨text, htext, hd⟩ := h
  obtain ⟨text', htext', hd'⟩ := h'
  cases htext.unique htext'
  exact Except.ok.inj (hd.symm.trans hd')

end Response

namespace Billing.Client

/-- Only of a response that says success a text comes, and it is the one that it brings. -/
theorem successBody_eq_ok_iff {address : String} {r : Response} {text : String} :
    successBody address r = .ok text ↔ r.Brings text := by
  have hbrings : r.Brings text ↔ r.isSuccess = true ∧ r.body = .ok text :=
    ⟨fun h => ⟨h.success, h.body⟩, fun h => ⟨h.1, h.2⟩⟩
  rw [hbrings, successBody]
  cases r.body with
  | error why => simp [Except.mapError, bind, Except.bind]
  | ok text' => cases r.isSuccess <;> simp [Except.mapError, bind, Except.bind]

variable {m : Type → Type} [Monad m] {σ : Type} [Stateful m σ] {c : Client m} {request : Request}
  {response : Response}

/-! ## Attempts -/

/-- From a state, the request gets this response, and leaves that state, when at most so many attempts have
got none. There is a pause behind each of those. -/
inductive Answers (c : Client m) (request : Request) (response : Response) : Nat → σ → σ → Prop
  | now {n : Nat} {s t : σ} (got : exec (c.link request) s = (.ok response, t)) :
      Answers c request response n s t
  | later {n : Nat} {s t u : σ} {why : TransportFault} (lost : exec (c.link request) s = (.error why, u))
      (rest : Answers c request response n (exec (c.sleep retryDelay) u).2 t) :
      Answers c request response (n + 1) s t

theorem exec_send {method : Method} {address : String} {body : Option String}
    (h : c.service.request method address body = .ok request) (s : σ) :
    exec (c.send method address body) s = exec (c.link request) s := by
  rw [send, h]

/-- With a retry for each attempt that gets no response, trying again gets the response. -/
theorem Answers.exec_retry {address : String} {n : Nat} {s t : σ} (h : c.Answers request response n s t)
    (hrequest : c.service.request .get address none = .ok request) :
    exec (retry (c.send .get address none) (c.sleep retryDelay) n) s = (.ok response, t) := by
  induction h with
  | @now n s t got =>
    cases n with
    | zero => rw [retry, exec_send hrequest, got]
    | succ n => rw [retry, Stateful.exec_bind, exec_send hrequest, got, Stateful.exec_pure]
  | @later n s t u why lost rest ih =>
    rw [retry, Stateful.exec_bind, exec_send hrequest, lost, Stateful.exec_bind, ih]

/-! ## Readings -/

/-- What the payload of a text at an address comes to. -/
def payloadFrom (address text : String) : Except Stop Json :=
  (readPayload text).mapError fun why => .fault (.badAnswer address text why)

/-- A request that is answered with success comes to the payload of the answer. -/
theorem Answers.exec_payload {address text : String} {s t : σ} (h : c.Answers request response retries s t)
    (hrequest : c.service.request .get address none = .ok request) (htext : response.Brings text) :
    (c.payload address).exec s = (payloadFrom address text, t) := by
  have hbody : successBody address response = .ok text := successBody_eq_ok_iff.2 htext
  simp only [payload, Act.exec_bind, Act.exec_liftM, Act.exec_ofExcept, h.exec_retry hrequest, Except.mapError, hbody]
  rfl

theorem Answers.exec_decoded {ε V : Type} {address text : String} {s t : σ}
    (h : c.Answers request response retries s t)
    (hrequest : c.service.request .get address none = .ok request) (htext : response.Brings text)
    (wrap : ε → Fault) (decode : Json → Except ε V) :
    (c.payload address >>= fun data => Act.ofExcept wrap (decode data)).exec s =
      ((payloadFrom address text).bind fun data => (decode data).mapError (.fault ∘ wrap), t) := by
  rw [Act.exec_bind, h.exec_payload hrequest htext]
  cases payloadFrom address text with
  | error why => rfl
  | ok data => exact Act.exec_ofExcept _ _ _

theorem Answers.exec_history {priceId text : String} {s t : σ} (h : c.Answers request response retries s t)
    (hrequest : c.service.request .get (c.service.historyAddress priceId) none = .ok request)
    (htext : response.Brings text) :
    (c.backend.history priceId).exec s =
      ((payloadFrom (c.service.historyAddress priceId) text).bind fun data =>
        (historyOf data).mapError (.fault ∘ .badVersions priceId), t) :=
  h.exec_decoded hrequest htext (.badVersions priceId) historyOf

theorem Answers.exec_currencies {text : String} {s t : σ} (h : c.Answers request response retries s t)
    (hrequest : c.service.request .get c.service.currenciesAddress none = .ok request)
    (htext : response.Brings text) :
    c.backend.currencies.exec s =
      ((payloadFrom c.service.currenciesAddress text).bind fun data =>
        (currenciesOf data).mapError (.fault ∘ .badCurrencies), t) :=
  h.exec_decoded hrequest htext .badCurrencies currenciesOf

/-- From all of these states a reading of an address is answered with what can be read as this value, before
the attempts run out, and it leaves a state of those. -/
def Gives {V : Type} (c : Client m) (address : String) (decode : Json → Except DecodeError V) (v : V)
    (before after : σ → Prop) : Prop :=
  ∃ request, c.service.request .get address none = .ok request ∧ ∀ s, before s → ∃ response data t,
    response.Carries data ∧ decode data = .ok v ∧ c.Answers request response retries s t ∧ after t

end Billing.Client

/-! ## A link to look at -/

/-- A link that is down for a number of requests and answers those after them. -/
def Link.faltering (answer : Request → Response) : Link (StateM Nat) := fun request down =>
  if down = 0 then (.ok (answer request), 0) else (.error (.unreachable request.url), down - 1)

/-- It answers before the attempts run out. -/
theorem Link.faltering_answers {service : ServiceConfig} {answer : Request → Response} (request : Request)
    {n down : Nat} (h : down ≤ n) :
    Billing.Client.Answers ⟨service, Link.faltering answer, fun _ => pure ()⟩ request (answer request) n down 0 := by
  induction n generalizing down with
  | zero =>
    obtain rfl : down = 0 := Nat.le_zero.1 h
    exact .now rfl
  | succ n ih =>
    cases down with
    | zero => exact .now rfl
    | succ down => exact .later rfl (ih (Nat.le_of_succ_le_succ h))

end Tariff
