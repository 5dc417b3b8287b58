import Mathlib
import Tariff.Command.Run
import Tariff.Proofs.Action.Logic
import Tariff.Proofs.Billing.Attempts
/-
  Tariff.Proofs.Billing.Record — what goes between a command and the service.

  A recorded host writes down every exchange with the service, whatever comes of it. From the record
  one can tell what the service told: which of its answers say success and can be read as a history
  or as currencies (`TellsHistory`, `TellsCurrencies`).

  - `history_reads`, `currencies_reads`: a reading of the service only sends requests that read. It
    gives what the one exchange that was answered tells; where it fails, nothing was told.
  - `append_sends`: an append sends one request, or none if none can be made.
-/

namespace Tariff

open Stateful (exec)

instance : DecidableEq Response := fun r r' =>
  decidable_of_iff (r.status = r'.status ∧ r.body = r'.body) (by cases r; cases r'; simp)

/-- A request and what came of it. -/
structure Exchange where
  request : Request
  answer : Except TransportFault Response
  deriving DecidableEq, Repr

/-- What went between a command and the service, oldest first. -/
structure Record where
  exchanges : List Exchange
  deriving Repr

namespace Record

def empty : Record := ⟨[]⟩

/-- The record with more exchanges. -/
def add (r : Record) (es : List Exchange) : Record := ⟨r.exchanges ++ es⟩

@[simp] theorem exchanges_add (r : Record) (es : List Exchange) : (r.add es).exchanges = r.exchanges ++ es := rfl

@[simp] theorem add_nil (r : Record) : r.add [] = r := by simp [add]

@[simp] theorem add_add (r : Record) (es fs : List Exchange) : (r.add es).add fs = r.add (es ++ fs) := by
  simp [add]

/-- The exchanges that ask for something to be appended. -/
def posts (r : Record) : List Exchange := r.exchanges.filter (·.request.method = .post)

/-- The second record has more than the first only exchanges that read. -/
def ReadsOnly (r r' : Record) : Prop :=
  ∃ es, r'.exchanges = r.exchanges ++ es ∧ ∀ e ∈ es, e.request.method = .get

theorem ReadsOnly.trans {r r' r'' : Record} (h : r.ReadsOnly r') (h' : r'.ReadsOnly r'') : r.ReadsOnly r'' := by
  obtain ⟨es, hes, hget⟩ := h
  obtain ⟨fs, hfs, hget'⟩ := h'
  refine ⟨es ++ fs, by rw [hfs, hes, List.append_assoc], fun e he => ?_⟩
  exact (List.mem_append.1 he).elim (hget e) (hget' e)

theorem ReadsOnly.posts {r r' : Record} (h : r.ReadsOnly r') : r'.posts = r.posts := by
  obtain ⟨es, hes, hget⟩ := h
  have hnone : es.filter (·.request.method = .post) = [] :=
    List.filter_eq_nil_iff.2 fun e he => by simp [hget e he]
  rw [Record.posts, Record.posts, hes, List.filter_append, hnone, List.append_nil]

end Record

variable {m : Type → Type} [Monad m] {σ : Type} [Stateful m σ]

/-- Files seen by actions that have a state of their own. -/
def Disk.lift {ρ : Type} (disk : Disk m) : Disk (StateT ρ m) where
  read path := StateT.lift (disk.read path)
  isThere path := StateT.lift (disk.isThere path)
  makeDirectories path := StateT.lift (disk.makeDirectories path)
  write path content := StateT.lift (disk.write path content)

/-- The host, with what goes between it and the service written down. -/
def Host.recorded (host : Host m) : Host (StateT Record m) where
  disk := host.disk.lift
  link request := fun r => do
    let answer ← host.link request
    return (answer, r.add [⟨request, answer⟩])
  sleep ms := StateT.lift (host.sleep ms)
  clock := StateT.lift host.clock
  today := StateT.lift host.today
  lead := host.lead

namespace Exchange

/-- There was a response. -/
def answered (e : Exchange) : Bool := e.answer.isOk

/-- The exchange read an address, and its response says success and holds this payload. -/
def Tells (service : ServiceConfig) (address : String) (e : Exchange) (data : Json) : Prop :=
  service.request .get address none = .ok e.request ∧ ∃ response, e.answer = .ok response ∧ response.Carries data

/-- The exchange tells the history of a price. -/
def TellsHistory (service : ServiceConfig) (priceId : String) (e : Exchange) (h : History) : Prop :=
  ∃ data, e.Tells service (service.historyAddress priceId) data ∧ Billing.historyOf data = .ok h

/-- The exchange tells the currencies. -/
def TellsCurrencies (service : ServiceConfig) (e : Exchange) (cs : List Currency) : Prop :=
  ∃ data, e.Tells service service.currenciesAddress data ∧ Billing.currenciesOf data = .ok cs

theorem Tells.answered {service : ServiceConfig} {address : String} {e : Exchange} {data : Json}
    (h : e.Tells service address data) : e.answered = true := by
  obtain ⟨-, response, ha, -⟩ := h
  simp [Exchange.answered, ha, Except.isOk, Except.toBool]

theorem Tells.unique {service : ServiceConfig} {address : String} {e : Exchange} {data data' : Json}
    (h : e.Tells service address data) (h' : e.Tells service address data') : data = data' := by
  obtain ⟨-, response, ha, hd⟩ := h
  obtain ⟨-, response', ha', hd'⟩ := h'
  cases ha.symm.trans ha'
  exact hd.unique hd'

theorem TellsHistory.unique {service : ServiceConfig} {priceId : String} {e : Exchange} {h h' : History}
    (ht : e.TellsHistory service priceId h) (ht' : e.TellsHistory service priceId h') : h = h' := by
  obtain ⟨data, hd, hh⟩ := ht
  obtain ⟨data', hd', hh'⟩ := ht'
  cases hd.unique hd'
  exact Except.ok.inj (hh.symm.trans hh')

theorem TellsCurrencies.unique {service : ServiceConfig} {e : Exchange} {cs cs' : List Currency}
    (ht : e.TellsCurrencies service cs) (ht' : e.TellsCurrencies service cs') : cs = cs' := by
  obtain ⟨data, hd, hh⟩ := ht
  obtain ⟨data', hd', hh'⟩ := ht'
  cases hd.unique hd'
  exact Except.ok.inj (hh.symm.trans hh')

end Exchange

/-! ## Requests -/

theorem ServiceConfig.request_eq_ok_iff {service : ServiceConfig} {method : Method} {address : String}
    {body : Option String} {request : Request} :
    service.request method address body = .ok request ↔ ∃ url authorization,
      Url.read address = .ok url ∧ service.authorization = .ok authorization ∧ url.isWeb = true ∧
        request = ⟨method, url, authorization, body.map fun _ => "application/json", "pricegate/0.1", body⟩ := by
  unfold ServiceConfig.request
  cases Url.read address with
  | error why => simp [Except.mapError, bind, Except.bind]
  | ok url =>
    cases service.authorization with
    | error why => simp [Except.mapError, bind, Except.bind]
    | ok authorization =>
      cases hweb : url.isWeb with
      | false => simp [Except.mapError, bind, Except.bind, throw, throwThe, MonadExceptOf.throw, hweb]
      | true =>
        simp only [Except.mapError, bind, Except.bind, hweb, Bool.not_true, Bool.false_eq_true, if_false, pure,
          Except.pure, Except.ok.injEq, exists_and_left, exists_eq_left', true_and]
        exact eq_comm

@[simp] theorem Host.exec_link_recorded (host : Host m) (request : Request) (r : Record) (s : σ) :
    exec (host.recorded.link request) (r, s) = ((exec (host.link request) s).1,
      r.add [⟨request, (exec (host.link request) s).1⟩], (exec (host.link request) s).2) := by
  simp [Stateful.exec_stateT, StateT.run, Host.recorded]

@[simp] theorem Host.exec_sleep_recorded (host : Host m) (ms : Nat) (r : Record) (s : σ) :
    exec (host.recorded.sleep ms) (r, s) = ((), r, (exec (host.sleep ms) s).2) := by
  simp [Stateful.exec_stateT, StateT.run, StateT.lift, Host.recorded]

@[simp] theorem Host.exec_clock_recorded (host : Host m) (r : Record) (s : σ) :
    exec host.recorded.clock (r, s) = ((exec host.clock s).1,
      r, (exec host.clock s).2) := by
  simp [Stateful.exec_stateT, StateT.run, StateT.lift, Host.recorded]

/-- The service behind a recorded host. -/
def Host.client (host : Host m) (service : ServiceConfig) : Billing.Client (StateT Record m) :=
  ⟨service, host.recorded.link, host.recorded.sleep⟩

theorem Host.exec_send (host : Host m) (service : ServiceConfig) (method : Method) (address : String)
    (body : Option String) (r : Record) (s : σ) :
    exec ((host.client service).send method address body) (r, s) =
      match service.request method address body with
      | .ok request => ((exec (host.link request) s).1, r.add [⟨request, (exec (host.link request) s).1⟩],
          (exec (host.link request) s).2)
      | .error why => (.error why, r, s) := by
  have hservice : (host.client service).service = service := rfl
  have hlink : (host.client service).link = host.recorded.link := rfl
  unfold Billing.Client.send
  rw [hservice, hlink]
  cases service.request method address body with
  | ok request => exact host.exec_link_recorded request r s
  | error why => exact Stateful.exec_pure _ _

/-! ## Readings -/

/-- These exchanges read an address, and end with this result: what the only one that was answered
tells, or none of them tells anything. -/
def Reads {ε V : Type} (service : ServiceConfig) (address : String) (tells : Exchange → V → Prop)
    (es : List Exchange) (result : Except ε V) : Prop :=
  (∀ e ∈ es, service.request .get address none = .ok e.request) ∧ match result with
    | .ok v => ∃ e, es.filter (·.answered) = [e] ∧ tells e v
    | .error _ => ∀ e ∈ es, ∀ v, ¬ tells e v

/-- The exchange was answered with this response. -/
def Exchange.Got (e : Exchange) (response : Response) : Prop := e.answer = .ok response

theorem Exchange.answered_iff {e : Exchange} : e.answered = true ↔ ∃ response, e.Got response := by
  cases h : e.answer <;> simp [Exchange.answered, Exchange.Got, h, Except.isOk, Except.toBool]

/-- What is read can be read further: what an exchange tells then is what comes of what it told. -/
theorem Reads.further {ε ε' V W : Type} {service : ServiceConfig} {address : String}
    {tells : Exchange → V → Prop} {tells' : Exchange → W → Prop} {es : List Exchange} {result : Except ε V}
    {result' : Except ε' W} (h : Reads service address tells es result)
    (hanswered : ∀ e v, tells e v → e.answered = true) (hunique : ∀ e v v', tells e v → tells e v' → v = v')
    (gives : V → W → Prop) (hresult : ∀ w, result' = .ok w ↔ ∃ v, result = .ok v ∧ gives v w)
    (htells : ∀ e w, service.request .get address none = .ok e.request →
      (tells' e w ↔ ∃ v, tells e v ∧ gives v w)) : Reads service address tells' es result' := by
  obtain ⟨hget, h⟩ := h
  refine ⟨hget, ?_⟩
  cases hr' : result' with
  | ok w =>
    obtain ⟨v, rfl, hw⟩ := (hresult w).1 hr'
    obtain ⟨e, he, hv⟩ := h
    have hmem : e ∈ es := List.mem_of_mem_filter (he ▸ List.mem_singleton_self e)
    exact ⟨e, he, (htells e w (hget e hmem)).2 ⟨v, hv, hw⟩⟩
  | error why =>
    intro e he w hw
    obtain ⟨v, hv, hfw⟩ := (htells e w (hget e he)).1 hw
    cases result with
    | error why' => exact h e he v hv
    | ok v' =>
      obtain ⟨x, hx, hv'⟩ := h
      have hmem : e ∈ [x] := hx ▸ List.mem_filter.2 ⟨he, hanswered e v hv⟩
      cases List.mem_singleton.1 hmem
      cases hunique e v v' hv hv'
      have hok := (hresult w).2 ⟨v, rfl, hfw⟩
      rw [hr'] at hok
      cases hok

theorem send_reads (host : Host m) (service : ServiceConfig) (address : String) (r : Record) (s : σ) :
    ∃ es, (exec ((host.client service).send .get address none) (r, s)).2.1 = r.add es ∧
      Reads service address Exchange.Got es (exec ((host.client service).send .get address none) (r, s)).1 := by
  rw [host.exec_send]
  cases hq : service.request .get address none with
  | error why => exact ⟨[], by simp, by simp [Reads]⟩
  | ok request =>
    refine ⟨[⟨request, (exec (host.link request) s).1⟩], rfl, by simp [hq], ?_⟩
    cases (exec (host.link request) s).1 with
    | ok response => exact ⟨_, rfl, rfl⟩
    | error why => simp [Exchange.Got]

/-- Trying again goes on until there is a response. -/
theorem retry_reads (host : Host m) (service : ServiceConfig) (address : String) (ms : Nat) (n : Nat)
    (r : Record) (s : σ) :
    ∃ es, (exec (retry ((host.client service).send .get address none) ((host.client service).sleep ms) n)
        (r, s)).2.1 = r.add es ∧
      Reads service address Exchange.Got es (exec (retry ((host.client service).send .get address none)
        ((host.client service).sleep ms) n) (r, s)).1 := by
  induction n generalizing r s with
  | zero => exact send_reads host service address r s
  | succ n ih =>
    obtain ⟨es, hes, hget, hread⟩ := send_reads host service address r s
    rw [retry, Stateful.exec_bind]
    rcases hx : exec ((host.client service).send .get address none) (r, s) with ⟨why | response, r', s'⟩ <;>
      rw [hx] at hes hread
    · obtain rfl : r' = r.add es := hes
      have hsleep : exec ((host.client service).sleep ms) (r.add es, s') =
          ((), r.add es, (exec (host.sleep ms) s').2) := host.exec_sleep_recorded ms _ _
      obtain ⟨fs, hfs, hget', hread'⟩ := ih (r.add es) (exec (host.sleep ms) s').2
      have hnone : es.filter (·.answered) = [] := List.filter_eq_nil_iff.2 fun e he ha => by
        obtain ⟨response, hgot⟩ := Exchange.answered_iff.1 ha
        exact hread e he response hgot
      simp only [Stateful.exec_bind, hsleep]
      refine ⟨es ++ fs, by rw [hfs, Record.add_add], fun e he => ?_, ?_⟩
      · exact (List.mem_append.1 he).elim (hget e) (hget' e)
      · revert hread'
        cases (exec (retry ((host.client service).send .get address none) ((host.client service).sleep ms) n)
          (r.add es, (exec (host.sleep ms) s').2)).1 with
        | ok response => exact fun h => by simpa only [List.filter_append, hnone, List.nil_append] using h
        | error why' => exact fun h e he => (List.mem_append.1 he).elim (hread e) (h e)
    · simp only [Stateful.exec_pure]
      exact ⟨es, hes, hget, hread⟩

/-- A payload comes of trying to get a response, and of what is in it. -/
theorem exec_payload (c : Billing.Client m) (address : String) (s : σ) :
    ((c.payload address).exec s).2 =
        (exec (retry (c.send .get address none) (c.sleep Billing.retryDelay) Billing.retries) s).2 ∧
      ∀ data, ((c.payload address).exec s).1 = .ok data ↔ ∃ response,
        (exec (retry (c.send .get address none) (c.sleep Billing.retryDelay) Billing.retries) s).1 = .ok response ∧
          response.Carries data := by
  simp only [Billing.Client.payload, Act.exec_bind, Act.exec_liftM, Act.exec_ofExcept, Response.Carries,
    ← @Billing.Client.successBody_eq_ok_iff address]
  rcases exec (retry (c.send .get address none) (c.sleep Billing.retryDelay) Billing.retries) s with
    ⟨why | response, t⟩
  · simp [Except.mapError]
  · cases hb : Billing.Client.successBody address response with
    | error why => simp [Except.mapError, hb]
    | ok text => cases hd : Billing.readPayload text <;> simp [Except.mapError, hb, hd]

/-- The payload is what the one exchange that was answered tells. -/
theorem payload_reads (host : Host m) (service : ServiceConfig) (address : String) (r : Record) (s : σ) :
    ((host.client service).payload address).Ensures (r, s) fun result t =>
      ∃ es, t.1 = r.add es ∧ Reads service address (fun e => e.Tells service address) es result := by
  obtain ⟨es, hes, hread⟩ := retry_reads host service address Billing.retryDelay Billing.retries r s
  obtain ⟨hstate, hresult⟩ := exec_payload (host.client service) address (r, s)
  refine ⟨es, by rw [hstate]; exact hes, hread.further ?_ ?_ (fun response data => response.Carries data) hresult ?_⟩
  · exact fun e response hgot => Exchange.answered_iff.2 ⟨response, hgot⟩
  · exact fun e response response' hgot hgot' => Except.ok.inj (hgot.symm.trans hgot')
  · intro e data hq
    simp only [Exchange.Tells, Exchange.Got, hq, true_and]

/-- What is decoded from a payload is what the one exchange that was answered tells. -/
theorem decoded_reads {ε V : Type} (host : Host m) (service : ServiceConfig) (address : String)
    (wrap : ε → Fault) (decode : Json → Except ε V) (r : Record) (s : σ) :
    ((host.client service).payload address >>= fun data => Act.ofExcept wrap (decode data)).Ensures (r, s)
      fun result t => ∃ es, t.1 = r.add es ∧
        Reads service address (fun e v => ∃ data, e.Tells service address data ∧ decode data = .ok v) es
          result := by
  obtain ⟨es, hes, hread⟩ := payload_reads host service address r s
  unfold Act.Ensures
  rw [Act.exec_bind]
  rcases hx : ((host.client service).payload address).exec (r, s) with ⟨result, t⟩
  rw [hx] at hes hread
  refine ⟨es, ?_, hread.further (fun _ _ h => h.answered) (fun _ _ _ h h' => h.unique h')
    (fun data v => decode data = .ok v) (fun v => ?_) (fun e v _ => Iff.rfl)⟩
  · cases result <;> simpa using hes
  · cases result with
    | error why => simp
    | ok data => cases hd : decode data <;> simp [Except.mapError, hd]

theorem history_reads (host : Host m) (service : ServiceConfig) (priceId : String) (r : Record) (s : σ) :
    ((host.client service).backend.history priceId).Ensures (r, s) fun result t => ∃ es, t.1 = r.add es ∧
      Reads service (service.historyAddress priceId) (fun e => e.TellsHistory service priceId) es result :=
  decoded_reads host service _ _ _ r s

/-- An append sends its request once, or fails because the request cannot be made. -/
theorem append_sends (host : Host m) (service : ServiceConfig) (priceId : String) (new : NewVersion)
    (r : Record) (s : σ) :
    ((host.client service).backend.append priceId new).Ensures (r, s) fun result t =>
      (∃ request answer, service.request .post (service.historyAddress priceId) (some new.body) = .ok request ∧
        t.1 = r.add [⟨request, answer⟩]) ∨
      ∃ why e, service.request .post (service.historyAddress priceId) (some new.body) = .error why ∧
        t.1 = r ∧ result = .error e := by
  have hservice : (host.client service).service = service := rfl
  unfold Act.Ensures
  simp only [Billing.Client.backend, Act.exec_bind, Act.exec_liftM, Act.exec_ofExcept, host.exec_send, hservice]
  cases service.request .post (service.historyAddress priceId) (some new.body) with
  | error why => exact .inr ⟨why, _, rfl, rfl, rfl⟩
  | ok request =>
    refine .inl ⟨request, (exec (host.link request) s).1, rfl, ?_⟩
    cases hlink : (exec (host.link request) s).1 with
    | error why => simp [Except.mapError, hlink]
    | ok response =>
      cases hb : Billing.Client.successBody (service.historyAddress priceId) response <;>
        simp [Except.mapError, hb, hlink]

end Tariff
