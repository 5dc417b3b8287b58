import Mathlib
import Tariff.Proofs.Backend.Journal
import Tariff.Proofs.Backend.Store
import Tariff.Proofs.Command.Course
import Tariff.Proofs.Command.Moves
/-
  Tariff.Proofs.Command.Transparency — a shelf does not show.

  Commands do the same on backends that are alike, because all they do with a backend is to call
  it (`Move.agree`). So a whole run does the same (`Move.trail_eq`), and in particular one behind a
  shelf and one without (`shelf_is_transparent`): move by move the same answers, the same pages and
  the same orders.
-/

namespace Tariff

open Stateful (exec)

variable {m n : Type → Type} [Monad m] [Monad n] {σ τ D : Type} [Stateful m σ] [Stateful n τ]
  {late : σ → Prop} {R : σ → τ → Prop} {b : Backend m} {b' : Backend n}

/-! ## One move -/

namespace Command

theorem survey_agree (hb : b.Alike late R b') (priceId : String) :
    Act.Agree late R (survey b priceId) (survey b' priceId) := by
  unfold survey
  rw [hb.lead]
  cases b'.lead with
  | history => exact (hb.history priceId).bind fun h => hb.currencies.bind fun cs => Act.Agree.pure _
  | currencies => exact hb.currencies.bind fun cs => (hb.history priceId).bind fun h => Act.Agree.pure _

theorem sayHistory_agree (color : Bool) (priceId : String) (h : History) (cs : List Currency) (now : Instant) :
    Act.Agree (fun s => late s.2) (Console.Alike R) (sayHistory (m := m) color priceId h cs now)
      (sayHistory (m := n) color priceId h cs now) := by
  unfold sayHistory
  exact (Act.Agree.ofOption _).bind fun page => Console.agree_say page

theorem decide_agree (color : Bool) (p : Proposal) (cs : List Currency) (h : History) (now : Instant) :
    Act.Agree (fun s => late s.2) (Console.Alike R) (decide (m := m) color p cs h now)
      (decide (m := n) color p cs h now) := by
  unfold decide
  refine (Act.Agree.ofOption _).bind fun page => ?_
  exact (Console.agree_say page).bind fun _ => Act.Agree.ofExcept _ _

theorem showCurrencies_agree (hb : b.Alike late R b') (color : Bool) :
    Act.Agree (fun s => late s.2) (Console.Alike R) (showCurrencies b color) (showCurrencies b' color) := by
  unfold showCurrencies
  exact (Console.agree_perform hb.currencies).bind fun cs => Console.agree_say _

theorem showHistory_agree (hb : b.Alike late R b') (color : Bool) (priceId : String) (now : Instant) :
    Act.Agree (fun s => late s.2) (Console.Alike R) (showHistory b color priceId now)
      (showHistory b' color priceId now) := by
  unfold showHistory
  exact (Console.agree_perform (survey_agree hb priceId)).bind fun read => sayHistory_agree _ _ _ _ _

theorem announce_agree (hb : b.Alike late R b') (color : Bool) (priceId : String) (cs : List Currency)
    (now : Instant) (v : Version) :
    Act.Agree (fun s => late s.2) (Console.Alike R) (announce b color priceId cs now v)
      (announce b' color priceId cs now v) := by
  unfold announce
  refine (Act.Agree.ofOption _).bind fun line => ?_
  refine (Console.agree_say _).bind fun _ => ?_
  exact (Console.agree_perform (hb.history priceId)).bind fun h => sayHistory_agree _ _ _ _ _

theorem append_agree (hb : b.Alike late R b') (priceId : String) (new : NewVersion) :
    Act.Agree late R (append b priceId new) (append b' priceId new) :=
  (hb.append priceId new).adapt _

theorem submit_agree (hb : b.Alike late R b') (color : Bool) (priceId : String) (cs : List Currency)
    (now : Instant) (a : Acceptance) :
    Act.Agree (fun s => late s.2) (Console.Alike R) (submit b color priceId cs now a)
      (submit b' color priceId cs now a) := by
  unfold submit
  exact (Console.agree_perform (append_agree hb priceId a.request)).bind fun v => announce_agree hb _ _ _ _ _

theorem consider_agree (hb : b.Alike late R b') (color : Bool) (priceId : String) (p : Proposal)
    (confirmed : Bool) (now : Instant) :
    Act.Agree (fun s => late s.2) (Console.Alike R) (consider b color priceId p confirmed now)
      (consider b' color priceId p confirmed now) := by
  unfold consider
  refine (Console.agree_perform (survey_agree hb priceId)).bind fun read => ?_
  refine (decide_agree _ _ _ _ _).bind fun a => ?_
  refine (Console.agree_say _).bind fun _ => ?_
  have hsubmit := submit_agree hb color priceId read.2 now a
  exact ((Act.Agree.throw _).bind fun _ => hsubmit).ite hsubmit

theorem addVersion_agree (hb : b.Alike late R b') (color : Bool) (priceId : String) (p : Proposal)
    (confirmed : Bool) (now : Instant) :
    Act.Agree (fun s => late s.2) (Console.Alike R) (addVersion b color priceId p confirmed now)
      (addVersion b' color priceId p confirmed now) := by
  rw [addVersion_eq, addVersion_eq]
  have hconsider := consider_agree hb color priceId p confirmed now
  exact ((Act.Agree.throw _).bind fun _ => hconsider).ite hconsider

end Command

namespace Move

/-- A move does the same on backends that are alike. -/
theorem agree (hb : b.Alike late R b') (color : Bool) (mv : Move) :
    Act.Agree (fun s => late s.2) (Console.Alike R) (mv.perform b color) (mv.perform b' color) := by
  cases mv with
  | currencies => exact (Console.agree_perform hb.currencies).bind fun cs => .pure _
  | history priceId => exact (Console.agree_perform (hb.history priceId)).bind fun h => .pure _
  | append priceId new => exact (Console.agree_perform (hb.append priceId new)).bind fun v => .pure _
  | showCurrencies => exact (Command.showCurrencies_agree hb color).bind fun _ => .pure _
  | showHistory priceId now => exact (Command.showHistory_agree hb color priceId now).bind fun _ => .pure _
  | add priceId p confirmed now =>
    exact (Command.addVersion_agree hb color priceId p confirmed now).bind fun _ => .pure _

/-! ## Runs -/

/-- The state that a run of moves leaves. -/
def after (b : Backend m) (color : Bool) : List Move → σ → σ
  | [], s => s
  | mv :: mvs, s => after b color mvs (mv.next b color s)

/-- What is seen of a run: of each move its answer or why it stopped, the pages that it showed, and
what was ordered up to its end. -/
def trail (b : Backend m) (color : Bool) (orders : σ → List (String × NewVersion)) :
    List Move → σ → List ((Except Stop Answer × List String) × List (String × NewVersion))
  | [], _ => []
  | mv :: mvs, s => (mv.reply b color s, orders (mv.next b color s)) :: trail b color orders mvs (mv.next b color s)

theorem next_stays (hb : b.Alike late R b') (color : Bool) (mv : Move) {s : σ} (hs : late s) :
    late (mv.next b color s) := (mv.agree hb color).stays ([], s) hs

theorem after_stays (hb : b.Alike late R b') (color : Bool) (moves : List Move) {s : σ} (hs : late s) :
    late (after b color moves s) := by
  induction moves generalizing s with
  | nil => exact hs
  | cons mv moves ih => exact ih (mv.next_stays hb color hs)

/-- Runs on backends that are alike look the same, if it does not get late. -/
theorem trail_eq (hb : b.Alike late R b') (color : Bool) {orders : σ → List (String × NewVersion)}
    {orders' : τ → List (String × NewVersion)} (horders : ∀ s t, R s t → orders s = orders' t)
    (moves : List Move) {s : σ} {t : τ} (h : R s t) (hend : ¬ late (after b color moves s)) :
    trail b color orders moves s = trail b' color orders' moves t := by
  induction moves generalizing s t with
  | nil => rfl
  | cons mv moves ih =>
    have hnext : ¬ late (mv.next b color s) := fun hl => hend (after_stays hb color moves hl)
    obtain ⟨hanswer, hpages, hstate⟩ :=
      ((mv.agree hb color).same ([], s) ([], t) ⟨rfl, h⟩).resolve_left hnext
    have hreply : mv.reply b color s = mv.reply b' color t := Prod.ext hanswer hpages
    have hnexts : R (mv.next b color s) (mv.next b' color t) := hstate
    rw [trail, trail, hreply, horders _ _ hnexts, ih hnexts hend]

end Move

/-! ## Behind a shelf -/

/-- On a backend whose readings always answer from its books, whose books only its own appends
change, and whose appends may fail, a run behind an empty shelf looks as it does without: the same
answers, pages and orders, move by move. The clock may show anything at each look, as long as it can
show the ends of what is kept. -/
theorem shelf_is_transparent (b : Backend m) {ledger : Ledger D} (hl : ledger.Lawful) {has : σ → D → Prop}
    (hb : Steady b ledger has) (clock : m Ticks) (hclock : ∀ s d, has s d → has (exec clock s).2 d)
    (config : CacheConfig) (color : Bool) (moves : List Move) {s : σ} {d : D} (hs : has s d)
    (hshown : ∀ t ∈ (Move.after (b.journaled.shelved (Journal.clock clock) config) color moves
      (Shelf.empty, Journal.empty, s)).2.1.readings, config.Shown t) :
    Move.trail (b.journaled.shelved (Journal.clock clock) config) color (fun t => t.2.1.orders) moves
        (Shelf.empty, Journal.empty, s) =
      Move.trail b.journaled color (fun t => t.1.orders) moves (Journal.empty, s) := by
  have hclock' : ∀ (s : Journal × σ) (d : List (String × NewVersion) × D),
      (s.1.orders = d.1 ∧ has s.2 d.2) →
        (exec (Journal.clock clock) s).2.1.orders = d.1 ∧ has (exec (Journal.clock clock) s).2.2 d.2 := by
    intro x y hx
    obtain ⟨j, s⟩ := x
    obtain ⟨orders, d⟩ := y
    obtain ⟨rfl, hs⟩ := hx
    rw [Journal.exec_clock]
    exact ⟨rfl, hclock s d hs⟩
  have halike := hb.journaled.alike_shelved hl.journaled hclock' (deadline_journaled b clock config)
  refine Move.trail_eq halike color ?_ moves ?_ ?_
  · intro s t hx
    obtain ⟨d, hs, ht, -⟩ := hx
    exact hs.1.trans ht.1.symm
  · exact ⟨([], d), ⟨rfl, hs⟩, ⟨rfl, hs⟩, Shelf.faithful_empty _⟩
  · intro hx
    obtain ⟨t, ht, hlate⟩ := hx
    exact hlate (hshown t ht)

/-- The store behind a shelf that keeps answers for five seconds, with its journal. -/
def Store.shelvedBackend : Backend (StateT Shelf (StateT Journal (StateT Store (StateM Ticks)))) :=
  Store.backend.journaled.shelved (Journal.clock Store.ticking) ⟨5, 5⟩

/-- So it is on a store, when a history is read twice and a version is appended in between. -/
theorem shelf_is_transparent_in_store :
    let moves : List Move := [.currencies, .history "price_1",
      .append "price_1" ⟨"USD", Decimal.unit 1, Instant.epoch⟩, .history "price_1"]
    Store.ledger.Lawful ∧
      (∀ t ∈ (Move.after Store.shelvedBackend true moves
        (Shelf.empty, Journal.empty, Store.sample, 0)).2.1.readings, CacheConfig.Shown ⟨5, 5⟩ t) ∧
      Move.trail Store.shelvedBackend true (fun t => t.2.1.orders) moves
          (Shelf.empty, Journal.empty, Store.sample, 0) =
        Move.trail (Store.backend (m := StateM Ticks)).journaled true (fun t => t.1.orders) moves
          (Journal.empty, Store.sample, 0) := by
  intro moves
  have hreadings : (Move.after Store.shelvedBackend true moves
      (Shelf.empty, Journal.empty, Store.sample, 0)).2.1.readings = [0, 1, 2, 3, 4, 5] := by
    decide +kernel
  have hshown : ∀ t ∈ (Move.after Store.shelvedBackend true moves
      (Shelf.empty, Journal.empty, Store.sample, 0)).2.1.readings, CacheConfig.Shown ⟨5, 5⟩ t := by
    rw [hreadings]
    unfold CacheConfig.Shown
    decide
  refine ⟨Store.ledger_lawful, hshown, ?_⟩
  unfold Store.shelvedBackend at hshown ⊢
  exact shelf_is_transparent Store.backend Store.ledger_lawful Store.steady Store.ticking (fun _ _ h => h)
    ⟨5, 5⟩ true moves ⟨rfl, rfl, rfl⟩ hshown

end Tariff
