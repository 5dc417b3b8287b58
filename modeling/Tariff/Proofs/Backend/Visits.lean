import Mathlib
import Tariff.Proofs.Backend.Shelf
/-
  Tariff.Proofs.Backend.Visits — a shelf that is used over and over.

  A visit is one call to a backend behind a shelf, with what was logged in its course and what it
  came to. `Visits` are all the ways in which calls can follow one another, whatever happens to
  the rest of the state between them.

  - `Reading`: the ways in which one reading through a cache can go.
  - `Visits.entry_fetched`: a history on the shelf was put there by a visit that fetched it, and
    after which no version of that price was appended through the shelf.
-/

namespace Tariff

open Stateful (exec)

/-! ## One reading -/

namespace Shelf

variable {m : Type → Type} [Monad m] {σ : Type} [Stateful m σ] {K V : Type} [DecidableEq K]

/-- How a reading through a cache goes: something good is found at the time of the clock; or else it
is asked for, which fails, or whose answer is kept if the clock can show its end. -/
inductive Reading (clock : m Ticks) (ttl : Ticks) (key : K) (read : Act m V) (c : Cache K V) (s : σ) :
    Except Stop V → Cache K V → σ → Prop
  | found {now : Ticks} {t : σ} {e : CacheEntry V} (look : exec clock s = (now, t))
      (live : c.live? now key = some e) : Reading clock ttl key read c s (.ok e.value) (c.get now key).2 t
  | failed {now : Ticks} {t u : σ} {why : Stop} (look : exec clock s = (now, t)) (miss : c.live? now key = none)
      (asked : read.exec t = (.error why, u)) : Reading clock ttl key read c s (.error why) (c.get now key).2 u
  | kept {now later : Ticks} {t u w : σ} {v : V} {c' : Cache K V} (look : exec clock s = (now, t))
      (miss : c.live? now key = none) (asked : read.exec t = (.ok v, u)) (look' : exec clock u = (later, w))
      (put : (c.get now key).2.put? later key v (some ttl) = some c') :
      Reading clock ttl key read c s (.ok v) c' w
  | unkept {now later : Ticks} {t u w : σ} {v : V} (look : exec clock s = (now, t))
      (miss : c.live? now key = none) (asked : read.exec t = (.ok v, u)) (look' : exec clock u = (later, w))
      (put : (c.get now key).2.put? later key v (some ttl) = none) :
      Reading clock ttl key read c s (.error .halt) (c.get now key).2 w

theorem readThrough_reading (clock : m Ticks) (ttl : Ticks) (key : K) (read : Act m V) (c : Cache K V) (s : σ) :
    let x := (readThrough clock ttl key read).exec (c, s)
    Reading clock ttl key read c s x.1 x.2.1 x.2.2 := by
  intro x
  have hfst := c.get_fst (exec clock s).1 key
  have hx : x = _ := exec_readThrough clock ttl key read c s
  rw [hx]
  rcases hlook : exec clock s with ⟨now, t⟩
  rcases hget : c.get now key with ⟨_ | v, c'⟩ <;> rw [hlook, hget] at hfst <;> simp only
  · have hmiss : c.live? now key = none := Option.map_eq_none_iff.1 hfst.symm
    have hc : c' = (c.get now key).2 := by rw [hget]
    rcases hasked : read.exec t with ⟨why | v, u⟩
    · rw [hc]
      exact .failed hlook hmiss hasked
    · rcases hlook' : exec clock u with ⟨later, w⟩
      cases hput : c'.put? later key v (some ttl) with
      | some c'' =>
        simp only [hlook', hput]
        exact .kept hlook hmiss hasked hlook' (hc ▸ hput)
      | none =>
        simp only [hlook', hput]
        rw [hc]
        exact .unkept hlook hmiss hasked hlook' (hc ▸ hput)
  · obtain ⟨e, hlive, rfl⟩ := Option.map_eq_some_iff.1 hfst.symm
    have hc : c' = (c.get now key).2 := by rw [hget]
    rw [hc]
    exact .found hlook hlive

variable {clock : m Ticks} {ttl : Ticks} {key : K} {read : Act m V} {c c' : Cache K V} {s t : σ} {r : Except Stop V}

/-- A reading leaves the entries of all other keys. -/
theorem Reading.entry?_other (h : Reading clock ttl key read c s r c' t) {k : K} (hk : k ≠ key) :
    c'.entry? k = c.entry? k := by
  cases h with
  | found | failed | unkept => rw [Cache.entry?_get, if_neg hk]
  | kept _ _ _ _ put =>
    obtain ⟨expiresAt, -, hentry⟩ := Cache.entry?_put put k
    rw [hentry, if_neg hk, Cache.entry?_get, if_neg hk]

end Shelf

/-! ## Visits -/

/-- One call to a backend behind a shelf: what was logged in its course, and what it came to. -/
inductive Visit (ρ : Type) where
  | currencies (log : ρ) (result : Except Stop (List Currency))
  | history (priceId : String) (log : ρ) (result : Except Stop History)
  | append (priceId : String) (new : NewVersion) (log : ρ) (result : Except Stop Version)

namespace Visit

variable {ρ : Type}

def log : Visit ρ → ρ
  | .currencies log _ => log
  | .history _ log _ => log
  | .append _ _ log _ => log

/-- The call was about this price. -/
def concerns (priceId : String) : Visit ρ → Bool
  | .currencies _ _ => false
  | .history q _ _ => q = priceId
  | .append q _ _ _ => q = priceId

/-- A version was appended to this price. -/
def Appends (priceId : String) (v : Visit ρ) : Prop :=
  ∃ new log version, v = .append priceId new log (.ok version)

theorem Appends.concerns {priceId : String} {v : Visit ρ} (h : v.Appends priceId) :
    v.concerns priceId = true := by
  obtain ⟨new, log, version, rfl⟩ := h
  simp [Visit.concerns]

end Visit

variable {m : Type → Type} [Monad m] {σ ρ : Type} [Stateful m σ]

/-- The call leads from one shelf and state to others. It has a log of its own, blank at first. -/
def Visit.Leads (b : Backend (StateT Shelf (StateT ρ m))) (blank : ρ) (shelf : Shelf) (s : σ) (shelf' : Shelf)
    (s' : σ) : Visit ρ → Prop
  | .currencies log result => b.currencies.exec (shelf, blank, s) = (result, shelf', log, s')
  | .history priceId log result => (b.history priceId).exec (shelf, blank, s) = (result, shelf', log, s')
  | .append priceId new log result => (b.append priceId new).exec (shelf, blank, s) = (result, shelf', log, s')

/-- The calls that were made, one after another from an empty shelf on, and what they leave. Before the
first and after each of them the state may become any other. -/
inductive Visits (b : Backend (StateT Shelf (StateT ρ m))) (blank : ρ) : List (Visit ρ) → Shelf → σ → Prop
  | start (s : σ) : Visits b blank [] Shelf.empty s
  | visit {vs : List (Visit ρ)} {shelf shelf' : Shelf} {s s' : σ} (v : Visit ρ) : Visits b blank vs shelf s →
      v.Leads b blank shelf s shelf' s' → Visits b blank (vs ++ [v]) shelf' s'
  | elapse {vs : List (Visit ρ)} {shelf : Shelf} {s : σ} (s' : σ) : Visits b blank vs shelf s →
      Visits b blank vs shelf s'

namespace Visits

variable {b : Backend (StateT Shelf (StateT ρ m))} {blank : ρ} {vs : List (Visit ρ)} {shelf : Shelf} {s : σ}

/-- A run goes on with a reading, whatever that comes to. -/
theorem read (h : Visits b blank vs shelf s) (priceId : String) :
    let x := (b.history priceId).exec (shelf, blank, s)
    Visits b blank (vs ++ [.history priceId x.2.2.1 x.1]) x.2.1 x.2.2.2 := .visit _ h rfl

/-- A run goes on with an append, whatever that comes to. -/
theorem order (h : Visits b blank vs shelf s) (priceId : String) (new : NewVersion) :
    let x := (b.append priceId new).exec (shelf, blank, s)
    Visits b blank (vs ++ [.append priceId new x.2.2.1 x.1]) x.2.1 x.2.2.2 := .visit _ h rfl

end Visits

/-- Any call of a run starts from what the calls before it leave. -/
theorem Visits.at_call {b : Backend (StateT Shelf (StateT ρ m))} {blank : ρ} {vs : List (Visit ρ)} {shelf : Shelf}
    {s : σ} (h : Visits b blank vs shelf s) {before after : List (Visit ρ)} {v : Visit ρ}
    (hvs : vs = before ++ v :: after) :
    ∃ shelf₁ s₁ shelf₂ s₂, Visits b blank before shelf₁ s₁ ∧ v.Leads b blank shelf₁ s₁ shelf₂ s₂ := by
  induction h generalizing after with
  | start => simp at hvs
  | @visit vs shelf shelf' s s' w hv hleads ih =>
    rcases eq_append_of_concat_eq hvs with ⟨rfl, rfl, -⟩ | ⟨after', -, hvs'⟩
    · exact ⟨shelf, s, shelf', s', hv, hleads⟩
    · exact ih hvs'
  | elapse _ _ ih => exact ih hvs

/-! ## Readings that stand -/

/-- A reading of the price with this log gave this history, and no version was appended to the price
since. -/
def Visit.Standing (vs : List (Visit ρ)) (priceId : String) (log : ρ) (h : History) : Prop :=
  ∃ before after, vs = before ++ .history priceId log (.ok h) :: after ∧ ∀ v ∈ after, ¬ v.Appends priceId

namespace Visit

variable {vs : List (Visit ρ)} {priceId : String} {log : ρ} {h : History}

theorem standing_new (vs : List (Visit ρ)) (priceId : String) (log : ρ) (h : History) :
    Standing (vs ++ [.history priceId log (.ok h)]) priceId log h :=
  ⟨vs, [], rfl, by simp⟩

theorem Standing.concat (hs : Standing vs priceId log h) {v : Visit ρ} (hv : ¬ v.Appends priceId) :
    Standing (vs ++ [v]) priceId log h := by
  obtain ⟨before, after, rfl, hafter⟩ := hs
  refine ⟨before, after ++ [v], by simp, fun x hx => ?_⟩
  rcases List.mem_append.1 hx with hx | hx
  · exact hafter x hx
  · obtain rfl := List.mem_singleton.1 hx
    exact hv

theorem Standing.of_concat {v : Visit ρ} (hs : Standing (vs ++ [v]) priceId log h) :
    v = .history priceId log (.ok h) ∨ (Standing vs priceId log h ∧ ¬ v.Appends priceId) := by
  obtain ⟨before, after, heq, hafter⟩ := hs
  rcases eq_append_of_concat_eq heq with ⟨-, hv, -⟩ | ⟨after', rfl, rfl⟩
  · exact .inl hv
  · exact .inr ⟨⟨before, after', rfl, fun x hx => hafter x (List.mem_append_left _ hx)⟩,
      hafter v (List.mem_append_right _ (List.mem_singleton_self v))⟩

/-- Which readings of a price stand depends on no call that was about something else. -/
theorem standing_filter :
    Standing (vs.filter (·.concerns priceId)) priceId log h ↔ Standing vs priceId log h := by
  constructor
  · intro hs
    obtain ⟨before, after, heq, hafter⟩ := hs
    obtain ⟨us, ws, rfl, -, hws⟩ := List.filter_eq_append_iff.1 heq
    obtain ⟨us', ws', rfl, -, -, rfl⟩ := List.filter_eq_cons_iff.1 hws
    refine ⟨us ++ us', ws', by simp, fun v hv happend => ?_⟩
    exact hafter v (List.mem_filter.2 ⟨hv, happend.concerns⟩) happend
  · intro hs
    obtain ⟨before, after, rfl, hafter⟩ := hs
    refine ⟨before.filter (·.concerns priceId), after.filter (·.concerns priceId), ?_, fun v hv => ?_⟩
    · simp [Visit.concerns]
    · exact hafter v (List.mem_of_mem_filter hv)

end Visit

/-! ## What is on the shelf -/

variable {b : Backend (StateT ρ m)} {clock : StateT ρ m Ticks} {config : CacheConfig} {blank : ρ}

/-- A call left this log in which the clock was looked at, the backend asked, and its answer put with a
second look at the clock; the entry is what was put. -/
def Backend.Fetched (b : Backend (StateT ρ m)) (clock : StateT ρ m Ticks) (ttl : Ticks) (blank : ρ)
    (priceId : String) (log : ρ) (e : CacheEntry History) : Prop :=
  ∃ (s : σ) (now : Ticks) (t u : ρ × σ) (later : Ticks) (w : σ), exec clock (blank, s) = (now, t) ∧
    (b.history priceId).exec t = (.ok e.value, u) ∧ exec clock u = (later, log, w) ∧
    e.expiresAt = some (later + ttl)

/-- The reading of a history through a shelf, as a reading through its cache. -/
theorem Shelf.history_reading {priceId : String} {shelf shelf' : Shelf} {log : ρ} {s s' : σ}
    {result : Except Stop History}
    (hx : ((b.shelved clock config).history priceId).exec (shelf, blank, s) = (result, shelf', log, s')) :
    Reading clock config.amountsTicks priceId (b.history priceId) shelf.histories (blank, s) result
      shelf'.histories (log, s') := by
  simp only [Backend.shelved, exec_onHistories, Prod.mk.injEq] at hx
  obtain ⟨rfl, rfl, hlast⟩ := hx
  have hreading := readThrough_reading clock config.amountsTicks priceId (b.history priceId) shelf.histories
    (blank, s)
  simp only at hreading
  rwa [hlast] at hreading

/-- What a reading gives was on the shelf, or was fetched. -/
theorem Shelf.Reading.value_ok {ttl : Ticks} {priceId : String} {c c' : Cache String History} {s s' : σ}
    {log : ρ} {h : History}
    (hr : Reading clock ttl priceId (b.history priceId) c (blank, s) (.ok h) c' (log, s')) :
    ∃ e, e.value = h ∧ (c.entry? priceId = some e ∨ b.Fetched clock ttl blank priceId log e) := by
  cases hr with
  | found look live => exact ⟨_, rfl, .inl (Cache.live?_eq_some live)⟩
  | @kept _ later _ _ _ _ _ look miss asked look' put =>
    exact ⟨⟨h, some (later + ttl)⟩, rfl, .inr ⟨s, _, _, _, later, s', look, asked, look', rfl⟩⟩

/-- What is on the shelf after a reading was there before, or is what the reading fetched. -/
theorem Shelf.Reading.entry?_ok {ttl : Ticks} {priceId : String} {c c' : Cache String History} {s s' : σ}
    {log : ρ} {result : Except Stop History}
    (h : Reading clock ttl priceId (b.history priceId) c (blank, s) result c' (log, s')) {e : CacheEntry History}
    (he : c'.entry? priceId = some e) :
    c.entry? priceId = some e ∨ (result = .ok e.value ∧ b.Fetched clock ttl blank priceId log e) := by
  cases h with
  | found | failed | unkept =>
    rw [Cache.entry?_get, if_pos rfl] at he
    exact .inl (Cache.live?_eq_some he)
  | kept look miss asked look' put =>
    rw [(Cache.entry?_put_ttl put).2] at he
    obtain rfl := Option.some.inj he
    exact .inr ⟨rfl, s, _, _, _, _, s', look, asked, look', rfl⟩

/-- What a call does to the entry of a price: it leaves it and appends nothing to the price, or it is a
reading of the price, or it appends to the price and takes the entry away. -/
theorem Visit.Leads.entry?_cases {v : Visit ρ} {shelf shelf' : Shelf} {s s' : σ}
    (h : v.Leads (b.shelved clock config) blank shelf s shelf' s') (priceId : String) :
    (shelf'.histories.entry? priceId = shelf.histories.entry? priceId ∧ ¬ v.Appends priceId) ∨
      (∃ log result, v = .history priceId log result ∧ Shelf.Reading clock config.amountsTicks priceId
        (b.history priceId) shelf.histories (blank, s) result shelf'.histories (log, s')) ∨
      (v.Appends priceId ∧ shelf'.histories.entry? priceId = none) := by
  cases v with
  | currencies log result =>
    simp only [Leads, Backend.shelved, Shelf.exec_onCurrencies, Prod.mk.injEq] at h
    obtain ⟨-, rfl, -⟩ := h
    exact .inl ⟨rfl, by simp [Appends]⟩
  | history q log result =>
    have hreading := Shelf.history_reading h
    by_cases hq : priceId = q
    · subst hq
      exact .inr (.inl ⟨log, result, rfl, hreading⟩)
    · exact .inl ⟨hreading.entry?_other hq, by simp [Appends]⟩
  | append q new log result =>
    rw [Leads, Shelf.exec_append_shelved] at h
    rcases hb : (b.append q new).exec (blank, s) with ⟨why | version, t⟩ <;> rw [hb] at h <;> cases h
    · exact .inl ⟨rfl, by simp [Appends]⟩
    · by_cases hq : priceId = q
      · subst hq
        exact .inr (.inr ⟨⟨new, _, version, rfl⟩, by rw [Cache.entry?_remove, if_pos rfl]⟩)
      · exact .inl ⟨by rw [Cache.entry?_remove, if_neg hq], by simp [Appends, Ne.symm hq]⟩

/-- Every entry of a history was put by a call that fetched it, and nothing was appended to the price
since. -/
theorem Visits.entry_fetched {vs : List (Visit ρ)} {shelf : Shelf} {s : σ}
    (h : Visits (b.shelved clock config) blank vs shelf s) {priceId : String} {e : CacheEntry History}
    (he : shelf.histories.entry? priceId = some e) :
    ∃ log, Visit.Standing vs priceId log e.value ∧
      b.Fetched clock config.amountsTicks blank priceId log e := by
  induction h with
  | start => simp [Shelf.empty] at he
  | @visit vs shelf shelf' s s' v hv hleads ih =>
    -- An entry that was there before stands unless a version is appended to the price.
    have old (hold : shelf.histories.entry? priceId = some e) (hnot : ¬ v.Appends priceId) :
        ∃ log, Visit.Standing (vs ++ [v]) priceId log e.value ∧
          b.Fetched clock config.amountsTicks blank priceId log e := by
      obtain ⟨log, hstanding, hfetched⟩ := ih hold
      exact ⟨log, hstanding.concat hnot, hfetched⟩
    rcases hleads.entry?_cases priceId with ⟨hsame, hnot⟩ | ⟨log, result, rfl, hreading⟩ | ⟨-, hnone⟩
    · exact old (hsame ▸ he) hnot
    · rcases hreading.entry?_ok he with hold | ⟨rfl, hfetched⟩
      · exact old hold (by simp [Visit.Appends])
      · exact ⟨log, Visit.standing_new vs priceId log e.value, hfetched⟩
    · rw [hnone] at he
      cases he
  | elapse s' hv ih => exact ih he

end Tariff
