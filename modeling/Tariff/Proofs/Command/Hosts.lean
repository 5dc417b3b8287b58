import Mathlib
import Tariff.Proofs.Backend.Sameness
import Tariff.Proofs.Command.Posts
import Tariff.Proofs.Command.Transparency
/-
  Tariff.Proofs.Command.Hosts — commands on hosts that are alike.

  All that a command learns it learns from its host. So it does the same on hosts whose operations
  come to the same (`run_agree`), whatever else the states of the hosts hold. A recorded host is
  like the host that is recorded, so what a record tells of a run is what happens without one
  (`run_recorded`).
-/

namespace Tariff

open Stateful (exec)

variable {m n : Type → Type} [Monad m] [Monad n] {σ τ : Type} [Stateful m σ] [Stateful n τ]

open Stateful (Same)

variable {R : σ → τ → Prop} {α β : Type}

/-! ## The service -/

/-- Trying again does the same if an attempt and a pause do. -/
theorem Stateful.Same.retry {ε : Type} {x : m (Except ε α)} {y : n (Except ε α)} {pause : m Unit}
    {pause' : n Unit} (hxy : Same R x y) (hpause : Same R pause pause') (k : Nat) :
    Same R (Tariff.retry x pause k) (Tariff.retry y pause' k) := by
  induction k with
  | zero => exact hxy
  | succ k ih =>
    refine hxy.bind fun r => ?_
    cases r with
    | ok a => exact .pure _
    | error why => exact hpause.bind fun _ => ih

/-- The clients speak for the same service, and what they send and wait for comes to the same. -/
structure Billing.Client.Alike (R : σ → τ → Prop) (c : Billing.Client m) (c' : Billing.Client n) : Prop where
  service : c.service = c'.service
  link (request : Request) : Same R (c.link request) (c'.link request)
  sleep (ms : Nat) : Same R (c.sleep ms) (c'.sleep ms)

namespace Billing.Client

variable {c : Billing.Client m} {c' : Billing.Client n}

theorem Alike.send (h : c.Alike R c') (method : Method) (address : String) (body : Option String) :
    Same R (c.send method address body) (c'.send method address body) := by
  unfold Billing.Client.send
  rw [h.service]
  cases c'.service.request method address body with
  | ok request => exact h.link request
  | error why => exact .pure _

theorem Alike.payload (h : c.Alike R c') (address : String) :
    Act.Agree Never R (c.payload address) (c'.payload address) := by
  have hretry := (h.send .get address none).retry (h.sleep retryDelay) retries
  refine (Act.agree_liftM hretry).bind fun response => ?_
  refine (Act.Agree.ofExcept _ _).bind fun response => ?_
  exact (Act.Agree.ofExcept _ _).bind fun body => .ofExcept _ _

theorem Alike.backend (h : c.Alike R c') : Backend.Alike Never R c.backend c'.backend where
  currencies := by
    have hpayload := h.payload c.service.currenciesAddress
    unfold Billing.Client.backend
    rw [← h.service]
    exact hpayload.bind fun data => .ofExcept _ _
  history priceId := by
    have hpayload := h.payload (c.service.historyAddress priceId)
    unfold Billing.Client.backend
    rw [← h.service]
    exact hpayload.bind fun data => .ofExcept _ _
  append priceId new := by
    have hsend := h.send .post (c.service.historyAddress priceId) (some new.body)
    unfold Billing.Client.backend
    rw [← h.service]
    refine (Act.agree_liftM hsend).bind fun response => ?_
    refine (Act.Agree.ofExcept _ _).bind fun response => ?_
    exact (Act.Agree.ofExcept _ _).bind fun body => .ofExcept _ _
  lead := rfl

end Billing.Client

/-! ## Hosts -/

/-- Every operation of one host comes to the same as that of the other, and of two requests at once the same
is answered first. -/
structure Host.Alike (R : σ → τ → Prop) (host : Host m) (host' : Host n) : Prop where
  read (path : String) : Same R (host.disk.read path) (host'.disk.read path)
  isThere (path : String) : Same R (host.disk.isThere path) (host'.disk.isThere path)
  makeDirectories (path : String) : Same R (host.disk.makeDirectories path) (host'.disk.makeDirectories path)
  write (path content : String) : Same R (host.disk.write path content) (host'.disk.write path content)
  link (request : Request) : Same R (host.link request) (host'.link request)
  sleep (ms : Nat) : Same R (host.sleep ms) (host'.sleep ms)
  clock : Same R host.clock host'.clock
  today : Same R host.today host'.today
  lead : host.lead = host'.lead

namespace Command

variable {host : Host m} {host' : Host n}

theorem connect_alike (h : host.Alike R host') (config : Config) :
    Backend.Alike Never (Beside R) (connect host config) (connect host' config) := by
  have hclient : Billing.Client.Alike R ⟨config.service, host.link, host.sleep⟩
      ⟨config.service, host'.link, host'.sleep⟩ := ⟨rfl, h.link, h.sleep⟩
  have hled : Backend.Alike Never R { Billing.Client.backend ⟨config.service, host.link, host.sleep⟩ with
      lead := host.lead } { Billing.Client.backend ⟨config.service, host'.link, host'.sleep⟩ with
      lead := host'.lead } := { hclient.backend with lead := h.lead }
  exact hled.shelved h.clock config.cache

theorem load_agree (h : host.Alike R host') (path : String) :
    Act.Agree Never R (Config.load host.disk path) (Config.load host'.disk path) :=
  (Act.agree_liftM (h.read path)).bind fun text =>
    (Act.Agree.ofExcept _ text).bind fun _ => .ofExcept _ _

theorem online_agree {α : Type} (h : host.Alike R host') (path : String)
    {act : Backend (StateT Shelf m) → Console (StateT Shelf m) α}
    {act' : Backend (StateT Shelf n) → Console (StateT Shelf n) α}
    (hact : ∀ b b', Backend.Alike Never (Beside R) b b' →
      Act.Agree Never (Console.Alike (Beside R)) (act b) (act' b')) :
    Act.Agree Never (Console.Alike R) (online host path act) (online host' path act') where
  stays := Act.keeps_never _
  same := by
    intro x y hxy
    obtain ⟨pages, s⟩ := x
    obtain ⟨_, t⟩ := y
    obtain ⟨rfl, hst⟩ := hxy
    right
    have hload := ((load_agree h path).same s t hst).resolve_left id
    rw [exec_online, exec_online]
    rcases hx : (Config.load host.disk path).exec s with ⟨r, u⟩
    rcases hy : (Config.load host'.disk path).exec t with ⟨r', w⟩
    rw [hx, hy] at hload
    obtain ⟨rfl, huw⟩ := hload
    cases r with
    | error e => exact ⟨rfl, rfl, huw⟩
    | ok config =>
      obtain ⟨hr, hpages, -, hrelated⟩ := ((hact _ _ (connect_alike h config)).same (pages, Shelf.empty, u)
        (pages, Shelf.empty, w) ⟨rfl, rfl, huw⟩).resolve_left id
      exact ⟨hr, hpages, hrelated⟩

theorem asOf_agree (h : host.Alike R host') (now : Option Instant) :
    Act.Agree Never (Console.Alike R) (asOf host now) (asOf host' now) := by
  cases now with
  | some t => exact .pure t
  | none => exact Console.agree_perform (Act.agree_exceptT_lift h.today)

theorem setUp_agree (h : host.Alike R host') (path : String) :
    Act.Agree Never (Console.Alike R) (setUp host.disk path) (setUp host'.disk path) := by
  have hroom : Act.Agree Never R (makeRoom host.disk path) (makeRoom host'.disk path) := by
    unfold makeRoom
    cases Path.parent? path with
    | none => exact .pure _
    | some directory => exact (Act.agree_liftM (h.makeDirectories directory)).bind fun made => .ofExcept _ _
  have hsay : Act.Agree (fun s => Never s.2) (Console.Alike R)
      (Console.say s!"Created default configuration at {path}" : Console m Unit)
      (Console.say s!"Created default configuration at {path}" : Console n Unit) := Console.agree_say _
  have hwrite := (Console.agree_perform hroom).bind fun _ =>
    (Console.agree_perform (Act.agree_exceptT_lift (h.write path Config.exampleText))).bind fun written =>
      (Act.Agree.ofExcept (.configNotWritten path) written).bind fun _ => hsay
  unfold setUp
  refine (Console.agree_perform (Act.agree_exceptT_lift (h.isThere path))).bind fun there => ?_
  exact ((Act.Agree.throw _).bind fun _ => hwrite).ite hwrite

theorem checkFile_agree (h : host.Alike R host') (color : Bool) (path : String) (now : Instant) :
    Act.Agree Never (Console.Alike R) (checkFile host.disk color path now)
      (checkFile host'.disk color path now) := by
  have hload : Act.Agree Never R (CheckInput.load host.disk path) (CheckInput.load host'.disk path) :=
    (Act.agree_liftM (h.read path)).bind fun text =>
      (Act.Agree.ofExcept _ text).bind fun _ => .ofExcept _ _
  unfold checkFile
  refine (Console.agree_perform hload).bind fun input => ?_
  exact Act.Agree.discard (decide_agree color input.proposal input.currencies input.history now)

/-- A command does the same on hosts that are alike. -/
theorem run_agree (h : host.Alike R host') (color : Bool) (defaultPath : String) (chosen : Option String)
    (cmd : Command) :
    Act.Agree Never (Console.Alike R) (run host color defaultPath chosen cmd)
      (run host' color defaultPath chosen cmd) := by
  cases cmd with
  | setup => exact setUp_agree h defaultPath
  | check path now => exact (asOf_agree h now).bind fun t => checkFile_agree h color path t
  | currencies => exact online_agree h _ fun b b' hb => showCurrencies_agree hb color
  | history priceId now =>
    exact (asOf_agree h now).bind fun t => online_agree h _ fun b b' hb => showHistory_agree hb color priceId t
  | add priceId p confirmed now =>
    exact (asOf_agree h now).bind fun t =>
      online_agree h _ fun b b' hb => addVersion_agree hb color priceId p confirmed t

end Command

/-! ## Recorded hosts -/

theorem Host.recorded_alike (host : Host m) :
    Host.Alike (fun (s : Record × σ) t => s.2 = t) host.recorded host := by
  have hlift {α : Type} (x : m α) :
      Same (fun (s : Record × σ) t => s.2 = t) (StateT.lift x : StateT Record m α) x := by
    intro s t h
    obtain ⟨r, s⟩ := s
    cases h
    simp [Stateful.exec_stateT, StateT.run, StateT.lift]
  refine ⟨fun path => hlift _, fun path => hlift _, fun path => hlift _, fun path content => hlift _, ?_,
    fun ms => hlift _, hlift _, hlift _, rfl⟩
  intro request s t h
  obtain ⟨r, s⟩ := s
  cases h
  rw [host.exec_link_recorded]
  exact ⟨rfl, rfl⟩

/-- A record does not show: a run on a recorded host comes to the same, shows the same pages and
leaves the host as it is left without a record. -/
theorem Command.run_recorded (host : Host m) (color : Bool) (defaultPath : String) (chosen : Option String)
    (cmd : Command) (pages : List String) (r : Record) (s : σ) :
    let x := (run host.recorded color defaultPath chosen cmd).exec (pages, r, s)
    (run host color defaultPath chosen cmd).exec (pages, s) = (x.1, x.2.1, x.2.2.2) := by
  intro x
  obtain ⟨hr, hpages, hstate⟩ := ((run_agree host.recorded_alike color defaultPath chosen cmd).same (pages, r, s)
    (pages, s) ⟨rfl, rfl⟩).resolve_left id
  exact Prod.ext hr.symm (Prod.ext hpages.symm hstate.symm)

end Tariff
