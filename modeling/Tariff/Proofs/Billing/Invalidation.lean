import Mathlib
import Tariff.Proofs.Backend.Visits
import Tariff.Proofs.Billing.Connection
/-
  Tariff.Proofs.Billing.Invalidation — what an append that the service has stored does to a shelf.

  The service says success to an append and sends the version as it is kept then. What the append
  comes to is what can be read of that (`append_reads`). If it can be read, no later reading gives
  what was on the shelf before (`stored_version_drops_history`). If not, the append fails although
  the version is stored, and the shelf stays as it is: the history from before is given again
  (`unread_version_keeps_history`).
-/

namespace Tariff

open Stateful (exec)

variable {m : Type → Type} [Monad m] {σ : Type} [Stateful m σ]

/-- What an append comes to that the service says success to: what can be read of the answer. -/
def Billing.appendedIn (service : ServiceConfig) (priceId : String) (response : Response) : Except Stop Version :=
  match response.body with
  | .error why => .error (.fault (.unread (service.historyAddress priceId) why))
  | .ok text => (readAppended text).mapError fun why => .fault (.badAnswer (service.historyAddress priceId) text why)

/-- Success is said to an append: what comes of it is what is read of the answer. -/
theorem Billing.Client.appended_of_success {service : ServiceConfig} {priceId : String} {response : Response}
    (h : response.isSuccess = true) :
    ((successBody (service.historyAddress priceId) response).mapError Stop.fault).bind (fun text =>
        (readAppended text).mapError fun why => .fault (.badAnswer (service.historyAddress priceId) text why)) =
      appendedIn service priceId response := by
  simp only [successBody, appendedIn, h]
  cases response.body <;> rfl

theorem append_reads (host : Host m) (service : ServiceConfig) (priceId : String) (new : NewVersion) (s : σ) :
    ((host.client service).backend.append priceId new).Ensures (Record.empty, s) fun result t =>
      ∀ e ∈ t.1.exchanges, ∀ response, e.answer = .ok response → response.isSuccess = true →
        result = Billing.appendedIn service priceId response := by
  have hservice : (host.client service).service = service := rfl
  unfold Act.Ensures
  simp only [Billing.Client.backend, Act.exec_bind, Act.exec_liftM, Act.exec_ofExcept, host.exec_send, hservice]
  cases service.request .post (service.historyAddress priceId) (some new.body) with
  | error why => simp [Except.mapError, Record.empty]
  | ok request =>
    cases hlink : (exec (host.link request) s).1 with
    | error why => simp [Except.mapError, hlink, Record.empty, Record.add]
    | ok response =>
      simp only [hlink, Except.mapError]
      cases hbody : Billing.Client.successBody (service.historyAddress priceId) response <;>
        simp only [Record.empty, Record.add, List.nil_append, List.mem_singleton, forall_eq, Except.ok.injEq] <;>
        rintro response' rfl hsuccess <;>
        rw [← Billing.Client.appended_of_success hsuccess, hbody] <;> rfl

/-- What is fetched was told. -/
theorem fetched_tells (host : Host m) (service : ServiceConfig) {ttl : Ticks} {priceId : String} {log : Record}
    {e : CacheEntry History}
    (h : ((host.client service).backend).Fetched (σ := σ) host.recorded.clock ttl Record.empty priceId log e) :
    ∃ x ∈ log.exchanges, x.TellsHistory service priceId e.value := by
  obtain ⟨s, now, ⟨r, t⟩, ⟨r', u⟩, later, w, hlook, hasked, hlook', -⟩ := h
  obtain ⟨es, hes, -, htold⟩ := history_reads host service priceId r t
  rw [hasked] at hes htold
  obtain ⟨x, hx, htells⟩ := htold
  rw [host.exec_clock_recorded] at hlook hlook'
  obtain rfl : r' = r.add es := hes
  cases hlook
  cases hlook'
  exact ⟨x, List.mem_append_right _ (List.mem_of_mem_filter (hx ▸ List.mem_singleton_self x)), htells⟩

/-- A reading that stands although a version was appended was made after that. -/
theorem Visit.Standing.after_append {ρ : Type} {before between : List (Visit ρ)} {v : Visit ρ} {priceId : String}
    {log : ρ} {h : History} (hs : Standing (before ++ v :: between) priceId log h) (hv : v.Appends priceId) :
    .history priceId log (.ok h) ∈ between := by
  induction between using List.reverseRecOn with
  | nil =>
    rcases hs.of_concat with rfl | ⟨-, hnot⟩
    · obtain ⟨new, log', version, heq⟩ := hv
      cases heq
    · exact absurd hv hnot
  | append_singleton between w ih =>
    rw [← List.cons_append, ← List.append_assoc] at hs
    rcases hs.of_concat with rfl | ⟨hs, -⟩
    · exact List.mem_append_right _ (List.mem_singleton_self _)
    · exact List.mem_append_left _ (ih hs)

namespace Command

section

variable (host : Host m) (config : Config)

/-- A reading that sends nothing gives what is on the shelf. -/
theorem silent_reading {priceId : String} {shelf shelf' : Shelf} {s s' : σ} {log : Record} {h : History}
    (hx : ((connect host.recorded config).history priceId).exec (shelf, Record.empty, s) =
      (.ok h, shelf', log, s')) (hsilent : log.exchanges = []) :
    ∃ e, shelf.histories.entry? priceId = some e ∧ e.value = h := by
  obtain ⟨e, rfl, hentry | hfetched⟩ := (Shelf.history_reading hx).value_ok
  · exact ⟨e, hentry, rfl⟩
  · obtain ⟨x, hx, -⟩ := fetched_tells host config.service hfetched
    simp [hsilent] at hx

/-- In every run on a connection, an append that the service says success to comes to what can be read
of the answer. Where a version can be read, no reading afterwards repeats what was on the shelf before:
what it gives without asking was told after the append. -/
theorem stored_version_drops_history {vs : List (Visit Record)} {shelf : Shelf} {s : σ}
    (hv : Visits (connect host.recorded config) Record.empty vs shelf s) (before after : List (Visit Record))
    (priceId : String) (new : NewVersion) (log : Record) (result : Except Stop Version)
    (hvs : vs = before ++ .append priceId new log result :: after) (e : Exchange) (he : e ∈ log.posts)
    (response : Response) (hgot : e.answer = .ok response) (hsuccess : response.isSuccess = true) :
    result = Billing.appendedIn config.service priceId response ∧
      ∀ text version, response.body = .ok text → Billing.readAppended text = .ok version →
        ∀ between log' h after', after = between ++ .history priceId log' (.ok h) :: after' →
          log'.exchanges = [] → ∃ log'', .history priceId log'' (.ok h) ∈ between ∧
            ∃ x ∈ log''.exchanges, x.TellsHistory config.service priceId h := by
  have hresult : result = Billing.appendedIn config.service priceId response := by
    obtain ⟨shelf₁, s₁, shelf₂, s₂, -, hleads⟩ := hv.at_call hvs
    have hreads : ((serviceOf host config).append priceId new).Ensures (Record.empty, s₁) _ :=
      append_reads host config.service priceId new s₁
    unfold Act.Ensures at hreads
    rw [Visit.Leads, connect_recorded, Shelf.exec_append_shelved] at hleads
    have hmem := List.mem_of_mem_filter he
    rcases hx : ((serviceOf host config).append priceId new).exec (Record.empty, s₁) with
      ⟨why | version, t⟩ <;> rw [hx] at hleads hreads <;> cases hleads <;>
      exact hreads e hmem response hgot hsuccess
  refine ⟨hresult, fun text version hbody hread between log' h after' hafter hsilent => ?_⟩
  have happended : Billing.appendedIn config.service priceId response = .ok version := by
    simp only [Billing.appendedIn, hbody, hread, Except.mapError]
  have happend : (Visit.append priceId new log result).Appends priceId :=
    ⟨new, log, version, by rw [hresult, happended]⟩
  rw [hafter, ← List.cons_append, ← List.append_assoc] at hvs
  obtain ⟨shelf₁, s₁, shelf₂, s₂, hbefore, hleads⟩ := hv.at_call hvs
  obtain ⟨entry, hentry, rfl⟩ := silent_reading host config hleads hsilent
  rw [connect_recorded] at hbefore
  obtain ⟨log'', hstanding, hfetched⟩ := hbefore.entry_fetched hentry
  exact ⟨log'', hstanding.after_append happend, fetched_tells host config.service hfetched⟩

end

/-! ## A service to look at -/

namespace Trial

/-- A host with a service that knows of no versions, and answers every append in this way. -/
def host (answer : Response) : Host (StateM Ticks) where
  disk := ⟨fun _ => pure (.error .notFound), fun _ => pure false, fun _ => pure (.ok ()), fun _ _ => pure (.ok ())⟩
  link request := pure (.ok (match request.method with
    | .get => ⟨200, .ok "\x7b\"data\":[]\x7d"⟩
    | .post => answer))
  sleep _ := pure ()
  clock := modifyGet fun t => (t, t + 1)
  today := pure Instant.epoch

def config : Config := ⟨⟨"http://localhost", none⟩, ⟨300, 30⟩⟩

def new : NewVersion := ⟨"USD", Decimal.unit 0, Instant.epoch⟩

/-- The version is stored, and sent as it is kept. -/
def storedText : String :=
  "\x7b\"data\":\x7b\"id\":\"amount_1\",\"price_id\":\"price_1\",\"currency\":\"USD\",\"amount\":\"1\"," ++
    "\"effective_from\":\"1970-01-01T00:00:00Z\"\x7d\x7d"

def stored : Response := ⟨201, .ok storedText⟩

/-- The version is stored, and nothing is sent. -/
def unread : Response := ⟨201, .ok "\x7b\x7d"⟩

variable (answer : Response)

def backend : Backend (StateT Shelf (StateT Record (StateM Ticks))) := connect (host answer).recorded config

/-- What a call comes to, and the shelf, the record and the time that it leaves. -/
abbrev Course (α : Type) := Except Stop α × Shelf × Record × Ticks

/-! A reading, an append, and two readings more. -/

def first : Course History := ((backend answer).history "price_1").exec (Shelf.empty, Record.empty, 0)

def order : Course Version :=
  ((backend answer).append "price_1" new).exec ((first answer).2.1, Record.empty, (first answer).2.2.2)

def second : Course History :=
  ((backend answer).history "price_1").exec ((order answer).2.1, Record.empty, (order answer).2.2.2)

def third : Course History :=
  ((backend answer).history "price_1").exec ((second answer).2.1, Record.empty, (second answer).2.2.2)

def reading (x : Course History) : Visit Record := .history "price_1" x.2.2.1 x.1

def ordering (x : Course Version) : Visit Record := .append "price_1" new x.2.2.1 x.1

theorem visits_made :
    Visits (backend answer) Record.empty
      [reading (first answer), ordering (order answer), reading (second answer), reading (third answer)]
      (third answer).2.1 (third answer).2.2.2 := by
  have hfirst : Visits (backend answer) Record.empty [reading (first answer)] (first answer).2.1
      (first answer).2.2.2 := by
    unfold first
    exact (Visits.start 0).read "price_1"
  have horder : Visits (backend answer) Record.empty [reading (first answer), ordering (order answer)]
      (order answer).2.1 (order answer).2.2.2 := by
    unfold order
    exact hfirst.order "price_1" new
  have hsecond : Visits (backend answer) Record.empty
      [reading (first answer), ordering (order answer), reading (second answer)] (second answer).2.1
      (second answer).2.2.2 := by
    unfold second
    exact horder.read "price_1"
  unfold third
  exact hsecond.read "price_1"

end Trial

open Trial in
/-- So it is where the version can be read: the last reading repeats what was told after the append. -/
theorem stored_version_drops_history_in_trial :
    (∃ e ∈ (order stored).2.2.1.posts, e.answer = .ok stored) ∧ stored.isSuccess = true ∧
      (third stored).1 = .ok [] ∧ (third stored).2.2.1.exchanges = [] ∧
        ∃ x ∈ (second stored).2.2.1.exchanges, x.TellsHistory Trial.config.service "price_1" [] := by
  have hposts : (order stored).2.2.1.posts.map (·.answer) = [.ok stored] := by decide +kernel
  obtain ⟨e, he, hgot⟩ := List.mem_map.1 (hposts ▸ List.mem_singleton_self (Except.ok stored))
  have hthird : (third stored).1 = .ok [] := by decide +kernel
  have hsilent : (third stored).2.2.1.exchanges = [] := by decide +kernel
  have hsuccess : stored.isSuccess = true := by decide
  have hsome : (Billing.readAppended storedText).toOption.isSome = true := by decide +kernel
  cases hread : Billing.readAppended storedText with
  | error why => simp [hread, Except.toOption] at hsome
  | ok version =>
    obtain ⟨-, hafter⟩ := stored_version_drops_history (Trial.host stored) Trial.config (visits_made stored)
      [reading (first stored)] [reading (second stored), reading (third stored)] "price_1" new
      (order stored).2.2.1 (order stored).1 rfl e he stored hgot hsuccess
    obtain ⟨log, hmem, htold⟩ := hafter storedText version rfl hread [reading (second stored)] (third stored).2.2.1 [] []
      (by rw [← hthird]; rfl) hsilent
    simp only [reading, List.mem_singleton, Visit.history.injEq, true_and] at hmem
    obtain ⟨rfl, -⟩ := hmem
    exact ⟨⟨e, he, hgot⟩, hsuccess, hthird, hsilent, htold⟩

open Trial in
/-- Where nothing can be read, a reading after the append repeats what was told before it. -/
theorem unread_version_keeps_history :
    (∃ shelf s, Visits (backend unread) Record.empty [reading (first unread), ordering (order unread),
        reading (second unread), reading (third unread)] shelf s) ∧
      (∃ e ∈ (order unread).2.2.1.posts, e.answer = .ok unread) ∧ unread.isSuccess = true ∧
      (first unread).1 = .ok [] ∧ (second unread).1 = .ok [] ∧ (second unread).2.2.1.exchanges = [] := by
  have hposts : (order unread).2.2.1.posts.map (·.answer) = [.ok unread] := by decide +kernel
  exact ⟨⟨_, _, visits_made unread⟩, List.mem_map.1 (hposts ▸ List.mem_singleton_self (Except.ok unread)),
    by decide, by decide +kernel, by decide +kernel, by decide +kernel⟩

end Command

end Tariff
