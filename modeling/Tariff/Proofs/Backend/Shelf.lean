import Mathlib
import Tariff.Backend.Shelf
import Tariff.Proofs.Action.Logic
import Tariff.Proofs.Cache.Entries
/-
  Tariff.Proofs.Backend.Shelf — reading through a shelf.

  A reading is a look at the clock and at the cache, and where nothing good is kept a reading of
  the backend, whose answer is then put with a second look at the clock (`exec_readThrough`). A
  cache that holds what a table says still does afterwards, and what was read is what the table
  says, as long as the backend reads what the table says (`readThrough_ensures`).
-/

namespace Tariff

open Stateful (exec)

/-- The clock can show the end of whatever is kept from then on. -/
def CacheConfig.Shown (config : CacheConfig) (t : Ticks) : Prop :=
  t + config.currenciesTicks < clockEnd ∧ t + config.amountsTicks < clockEnd

namespace Shelf

variable {m : Type → Type} [Monad m] {σ : Type} [Stateful m σ] {K V : Type} [DecidableEq K]

theorem exec_lookUp (clock : m Ticks) (key : K) (c : Cache K V) (s : σ) :
    (lookUp clock key).exec (c, s) =
      (.ok (c.get (exec clock s).1 key).1, (c.get (exec clock s).1 key).2, (exec clock s).2) := by
  simp [lookUp, Act.exec_bind]

theorem exec_keep (clock : m Ticks) (ttl : Ticks) (key : K) (value : V) (c : Cache K V) (s : σ) :
    (keep clock ttl key value).exec (c, s) =
      match c.put? (exec clock s).1 key value (some ttl) with
      | some c' => (.ok (), c', (exec clock s).2)
      | none => (.error .halt, c, (exec clock s).2) := by
  simp only [keep, Act.exec_bind, Act.exec_liftM_stateT, Act.exec_get]
  cases c.put? (exec clock s).1 key value (some ttl) <;> simp

/-- Keeping a value looks at the clock, whether or not the clock can show the end of it. -/
theorem exec_keep_snd (clock : m Ticks) (ttl : Ticks) (key : K) (value : V) (c : Cache K V) (s : σ) :
    ((keep clock ttl key value).exec (c, s)).2.2 = (exec clock s).2 := by
  rw [exec_keep]
  cases c.put? (exec clock s).1 key value (some ttl) <;> rfl

/-- What is found is not asked for again; what is not is read, and kept if the clock can show
its end. -/
theorem exec_readThrough (clock : m Ticks) (ttl : Ticks) (key : K) (read : Act m V) (c : Cache K V) (s : σ) :
    (readThrough clock ttl key read).exec (c, s) =
      match c.get (exec clock s).1 key with
      | (some v, c') => (.ok v, c', (exec clock s).2)
      | (none, c') =>
        match read.exec (exec clock s).2 with
        | (.error e, t) => (.error e, c', t)
        | (.ok v, t) =>
          match c'.put? (exec clock t).1 key v (some ttl) with
          | some c'' => (.ok v, c'', (exec clock t).2)
          | none => (.error .halt, c', (exec clock t).2) := by
  rw [readThrough, Act.exec_bind, exec_lookUp]
  rcases c.get (exec clock s).1 key with ⟨_ | v, c'⟩
  · simp only [Act.exec_bind, Act.exec_lift]
    rcases read.exec (exec clock s).2 with ⟨_ | v, t⟩
    · rfl
    · simp only [exec_keep]
      cases c'.put? (exec clock t).1 key v (some ttl) <;> simp
  · simp

/-- A cache that holds what a table says goes on doing so, and what is read is what the table
says. `I` is what the backend and the clock keep true. -/
theorem readThrough_ensures {I : σ → Prop} {clock : m Ticks} {ttl : Ticks} {key : K} {read : Act m V}
    {table : K → V} {c : Cache K V} {s : σ} (hc : c.Holds table) (hclock : ∀ s, I s → I (exec clock s).2)
    (hread : ∀ s, I s → read.Ensures s fun r t => I t ∧ ∀ v, r = .ok v → v = table key) (hs : I s) :
    (readThrough clock ttl key read).Ensures (c, s) fun r t =>
      I t.2 ∧ t.1.Holds table ∧ ∀ v, r = .ok v → v = table key := by
  have hget := hc.get (exec clock s).1 key
  have hfound := hc.get_eq (exec clock s).1 key
  have hs' := hclock s hs
  unfold Act.Ensures
  rw [exec_readThrough]
  rcases hg : c.get (exec clock s).1 key with ⟨_ | v, c'⟩ <;> rw [hg] at hget hfound
  · have hr := hread _ hs'
    unfold Act.Ensures at hr
    rcases hx : read.exec (exec clock s).2 with ⟨_ | v, t⟩ <;> rw [hx] at hr
    · exact ⟨hr.1, hget, by simp⟩
    · obtain ⟨ht, hv⟩ := hr
      obtain rfl := hv v rfl
      have ht' := hclock t ht
      cases hput : c'.put? (exec clock t).1 key (table key) (some ttl) with
      | none =>
        simp only [hput]
        exact ⟨ht', hget, by simp⟩
      | some c'' =>
        simp only [hput]
        exact ⟨ht', Cache.Holds.put hget hput, by simp⟩
  · refine ⟨hs', hget, fun w hw => ?_⟩
    cases hw
    exact hfound v rfl

/-- Where reading gives what the table says, so does reading through the cache, unless it gets so
late that the clock cannot show the end of what is kept. -/
theorem readThrough_answers {I late : σ → Prop} {clock : m Ticks} {ttl : Ticks} {key : K} {read : Act m V}
    {table : K → V} {c : Cache K V} {s : σ} (hc : c.Holds table) (hclock : ∀ s, I s → I (exec clock s).2)
    (hend : ∀ s, ¬ late (exec clock s).2 → (exec clock s).1 + ttl < clockEnd)
    (hread : ∀ s, I s → read.Ensures s fun r t => r = .ok (table key) ∧ I t) (hs : I s) :
    (readThrough clock ttl key read).Ensures (c, s) fun r t =>
      late t.2 ∨ (r = .ok (table key) ∧ I t.2 ∧ t.1.Holds table) := by
  have hkept : (readThrough clock ttl key read).Ensures (c, s) fun r t =>
      I t.2 ∧ t.1.Holds table ∧ ∀ v, r = .ok v → v = table key :=
    readThrough_ensures hc hclock (fun s hs => (hread s hs).mono fun r t h =>
      ⟨h.2, fun v hv => Except.ok.inj (hv.symm.trans h.1)⟩) hs
  have hok : late ((readThrough clock ttl key read).exec (c, s)).2.2 ∨
      ∃ v, ((readThrough clock ttl key read).exec (c, s)).1 = .ok v := by
    rw [exec_readThrough]
    rcases c.get (exec clock s).1 key with ⟨_ | v, c'⟩
    · have hr := (hread _ (hclock s hs)).1
      rcases hx : read.exec (exec clock s).2 with ⟨r, t⟩
      rw [hx] at hr
      obtain rfl := hr
      by_cases hl : late (exec clock t).2
      · left
        cases hput : c'.put? (exec clock t).1 key (table key) (some ttl) <;> simpa only [hput] using hl
      · right
        simp [Cache.put?, Cache.expiry?, hend t hl]
    · exact .inr ⟨v, rfl⟩
  unfold Act.Ensures at *
  obtain ⟨hI, hholds, heq⟩ := hkept
  rcases hok with hl | ⟨v, hv⟩
  · exact .inl hl
  · exact .inr ⟨by rw [hv, heq v hv], hI, hholds⟩

/-- What looking at the clock and reading keep is kept. -/
theorem readThrough_keeps {I : σ → Prop} {clock : m Ticks} (ttl : Ticks) (key : K) {read : Act m V}
    (hclock : ∀ s, I s → I (exec clock s).2) (hread : read.Keeps I) :
    (readThrough clock ttl key read).Keeps fun s => I s.2 := by
  intro x hs
  obtain ⟨c, s⟩ := x
  rw [exec_readThrough]
  have hs' := hclock s hs
  rcases c.get (exec clock s).1 key with ⟨_ | v, c'⟩
  · have hr := hread _ hs'
    rcases hx : read.exec (exec clock s).2 with ⟨_ | v, t⟩ <;> rw [hx] at hr
    · exact hr
    · cases hput : c'.put? (exec clock t).1 key v (some ttl) <;> simpa only [hput] using hclock t hr
  · exact hs'

/-! ## Both caches -/

theorem exec_onCurrencies {α : Type} (act : Act (StateT (Cache String (List Currency)) m) α)
    (shelf : Shelf) (s : σ) :
    (onCurrencies act).exec (shelf, s) = ((act.exec (shelf.currencies, s)).1,
      { shelf with currencies := (act.exec (shelf.currencies, s)).2.1 }, (act.exec (shelf.currencies, s)).2.2) := by
  simp [Act.exec, onCurrencies, Stateful.exec_stateT, StateT.run]

theorem exec_onHistories {α : Type} (act : Act (StateT (Cache String History) m) α) (shelf : Shelf) (s : σ) :
    (onHistories act).exec (shelf, s) = ((act.exec (shelf.histories, s)).1,
      { shelf with histories := (act.exec (shelf.histories, s)).2.1 }, (act.exec (shelf.histories, s)).2.2) := by
  simp [Act.exec, onHistories, Stateful.exec_stateT, StateT.run]

/-- A shelf keeps what the backend and the clock keep. -/
theorem currencies_keeps {I : σ → Prop} {b : Backend m} {clock : m Ticks} (config : CacheConfig)
    (hclock : ∀ s, I s → I (exec clock s).2) (hb : b.currencies.Keeps I) :
    (b.shelved clock config).currencies.Keeps fun s => I s.2 := by
  intro x hs
  obtain ⟨shelf, s⟩ := x
  simp only [Backend.shelved, exec_onCurrencies]
  exact readThrough_keeps config.currenciesTicks currenciesKey hclock hb (shelf.currencies, s) hs

theorem history_keeps {I : σ → Prop} {b : Backend m} {clock : m Ticks} (config : CacheConfig) (priceId : String)
    (hclock : ∀ s, I s → I (exec clock s).2) (hb : (b.history priceId).Keeps I) :
    ((b.shelved clock config).history priceId).Keeps fun s => I s.2 := by
  intro x hs
  obtain ⟨shelf, s⟩ := x
  simp only [Backend.shelved, exec_onHistories]
  exact readThrough_keeps config.amountsTicks priceId hclock hb (shelf.histories, s) hs

theorem exec_append_shelved (b : Backend m) (clock : m Ticks) (config : CacheConfig) (priceId : String)
    (new : NewVersion) (shelf : Shelf) (s : σ) :
    ((b.shelved clock config).append priceId new).exec (shelf, s) =
      match (b.append priceId new).exec s with
      | (.ok v, t) => (.ok v, { shelf with histories := shelf.histories.remove priceId }, t)
      | (.error e, t) => (.error e, shelf, t) := by
  simp only [Backend.shelved, Act.exec_bind, Act.exec_lift, Act.exec_pure]
  rcases (b.append priceId new).exec s with ⟨_ | v, t⟩
  · rfl
  · simp only [exec_onHistories, Act.exec_modify]

end Shelf

end Tariff
