import Mathlib
import Tariff.Proofs.Backend.Store
import Tariff.Proofs.Backend.Sameness
import Tariff.Proofs.Backend.Visits
/-
  Tariff.Proofs.Backend.Recency — how old the histories of a shelf can be.

  A watched backend writes down every call that reaches it, and a watched clock what it shows. It
  is like the backend itself (`Backend.watched_alike`).

  - `every_reading_is_recent`: a reading asks the backend once and comes to its answer, or it asks
    nothing and repeats a history that was put within the time to keep, if nothing was appended
    to the price since. Which of the two it does depends on earlier calls about that price only.
  - `longest_kept_reading_halts`: where the time to keep is so long that the clock cannot show its
    end, the answer of the backend is lost.
-/

namespace Tariff

open Stateful (exec Same)

/-! ## What is seen of a call -/

/-- A look at the clock, or a call that reached the backend and what the backend answered. -/
inductive Sight where
  | looked (now : Ticks)
  | currencies (answer : Except Stop (List Currency))
  | history (priceId : String) (answer : Except Stop History)
  | append (priceId : String) (new : NewVersion) (answer : Except Stop Version)

variable {m : Type → Type} [Monad m] {σ : Type} [Stateful m σ]

namespace Sight

/-- Do something and write down what came of it. -/
def watch {α : Type} (sight : Except Stop α → Sight) (act : Act m α) : Act (StateT (List Sight) m) α :=
  ExceptT.mk fun seen => do
    let answer ← act.run
    return (answer, seen ++ [sight answer])

/-- A clock whose looks are written down. -/
def clock (clock : m Ticks) : StateT (List Sight) m Ticks := fun seen => do
  let now ← clock
  return (now, seen ++ [.looked now])

/-- The time at which the clock was looked at. -/
def time? : Sight → Option Ticks
  | .looked now => some now
  | _ => none

theorem exec_watch {α : Type} (sight : Except Stop α → Sight) (act : Act m α) (seen : List Sight) (s : σ) :
    (watch sight act).exec (seen, s) = ((act.exec s).1, seen ++ [sight (act.exec s).1], (act.exec s).2) := by
  simp [Act.exec, watch, Stateful.exec_stateT, StateT.run]

theorem exec_clock (c : m Ticks) (seen : List Sight) (s : σ) :
    exec (clock c) (seen, s) = ((exec c s).1, seen ++ [.looked (exec c s).1], (exec c s).2) := by
  simp [clock, Stateful.exec_stateT, StateT.run]

theorem log_of_clock {c : m Ticks} {x y : List Sight × σ} {now : Ticks} (h : exec (clock c) x = (now, y)) :
    y.1 = x.1 ++ [.looked now] := by
  obtain ⟨seen, s⟩ := x
  rw [exec_clock] at h
  cases h
  rfl

theorem log_of_watch {α : Type} {sight : Except Stop α → Sight} {act : Act m α} {x y : List Sight × σ}
    {answer : Except Stop α} (h : (watch sight act).exec x = (answer, y)) : y.1 = x.1 ++ [sight answer] := by
  obtain ⟨seen, s⟩ := x
  rw [exec_watch] at h
  cases h
  rfl

end Sight

/-- A backend all of whose calls are written down. -/
def Backend.watched (b : Backend m) : Backend (StateT (List Sight) m) where
  currencies := Sight.watch .currencies b.currencies
  history priceId := Sight.watch (.history priceId) (b.history priceId)
  append priceId new := Sight.watch (.append priceId new) (b.append priceId new)
  lead := b.lead

/-- Being watched does not show: behind a shelf a watched backend does the same. -/
theorem Backend.watched_alike (b : Backend m) (clock : m Ticks) (config : CacheConfig) :
    Backend.Alike Never (Beside fun (s : List Sight × σ) t => s.2 = t)
      (b.watched.shelved (Sight.clock clock) config) (b.shelved clock config) := by
  have hwatch {α : Type} (sight : Except Stop α → Sight) (act : Act m α) :
      Act.Agree Never (fun (s : List Sight × σ) t => s.2 = t) (Sight.watch sight act) act := by
    refine ⟨Act.keeps_never _, fun s t h => .inr ?_⟩
    obtain ⟨seen, s⟩ := s
    cases h
    rw [Sight.exec_watch]
    exact ⟨rfl, rfl⟩
  have hb : Backend.Alike Never (fun (s : List Sight × σ) t => s.2 = t) b.watched b :=
    ⟨hwatch _ _, fun priceId => hwatch _ _, fun priceId new => hwatch _ _, rfl⟩
  refine hb.shelved (fun s t h => ?_) config
  obtain ⟨seen, s⟩ := s
  cases h
  rw [Sight.exec_clock]
  exact ⟨rfl, rfl⟩

/-! ## What is kept -/

/-- The times at which the clock was looked at, oldest first. -/
def Visit.looks (vs : List (Visit (List Sight))) : List Ticks := vs.flatMap fun v => v.log.filterMap Sight.time?

/-- The backend gave this history to a call that put it at this time, and nothing was appended to the
price since. -/
def Visit.Kept (vs : List (Visit (List Sight))) (priceId : String) (h : History) (since : Ticks) : Prop :=
  ∃ now, Standing vs priceId [.looked now, .history priceId (.ok h), .looked since] h

/-- What is seen of a reading that asks the backend once, after this look at the clock, and what it comes
to: the answer of the backend, unless that is to be kept and the clock cannot show its end. -/
inductive Asked (ttl : Ticks) (priceId : String) (now : Ticks) : List Sight → Except Stop History → Prop
  | failed (why : Stop) : Asked ttl priceId now [.looked now, .history priceId (.error why)] (.error why)
  | told (h : History) (later : Ticks) (shown : later + ttl < clockEnd) :
      Asked ttl priceId now [.looked now, .history priceId (.ok h), .looked later] (.ok h)
  | unkept (h : History) (later : Ticks) (beyond : clockEnd ≤ later + ttl) :
      Asked ttl priceId now [.looked now, .history priceId (.ok h), .looked later] (.error .halt)

theorem Asked.looked {ttl : Ticks} {priceId : String} {now : Ticks} {log : List Sight} {result : Except Stop History}
    (h : Asked ttl priceId now log result) : .looked now ∈ log := by
  cases h <;> exact List.mem_cons_self

variable {b : Backend m} {clock : m Ticks} {config : CacheConfig}

/-- What is seen where the backend is asked between two looks at the clock. -/
theorem Sight.log_of_put {priceId : String} {s w : σ} {t u : List Sight × σ} {now later : Ticks} {log : List Sight}
    {answer : Except Stop History} (look : exec (Sight.clock clock) ([], s) = (now, t))
    (asked : (b.watched.history priceId).exec t = (answer, u))
    (look' : exec (Sight.clock clock) u = (later, log, w)) :
    log = [.looked now, .history priceId answer, .looked later] :=
  calc
    log = u.1 ++ [.looked later] := log_of_clock look'
    _ = t.1 ++ [.history priceId answer] ++ [.looked later] := by rw [log_of_watch asked]
    _ = [.looked now, .history priceId answer, .looked later] := by rw [log_of_clock look]; rfl

/-- The entry of a history is one that is kept, and ends when its time is over. -/
theorem Visits.entry_kept {vs : List (Visit (List Sight))} {shelf : Shelf} {s : σ}
    (hv : Visits (b.watched.shelved (Sight.clock clock) config) [] vs shelf s) {priceId : String}
    {e : CacheEntry History} (he : shelf.histories.entry? priceId = some e) :
    ∃ since, Visit.Kept vs priceId e.value since ∧ e.expiresAt = some (since + config.amountsTicks) := by
  obtain ⟨log, hstanding, s₀, now, t, u, later, w, hlook, hasked, hlook', hend⟩ := hv.entry_fetched he
  obtain rfl := Sight.log_of_put hlook hasked hlook'
  exact ⟨later, ⟨now, hstanding⟩, hend⟩

/-- What is seen of a reading: either it looks at the clock only, and gives what is on the shelf and
good at that time; or nothing there is good, and it asks, and keeps what it comes to. -/
theorem Shelf.Reading.seen {ttl : Ticks} {priceId : String} {c c' : Cache String History} {s s' : σ}
    {log : List Sight} {result : Except Stop History}
    (h : Reading (Sight.clock clock) ttl priceId (b.watched.history priceId) c ([], s) result c' (log, s')) :
    ∃ now, (∃ e, c.live? now priceId = some e ∧ log = [.looked now] ∧ result = .ok e.value ∧
        c'.entry? priceId = some e) ∨
      (c.live? now priceId = none ∧ Asked ttl priceId now log result ∧ ∀ v since,
        log = [.looked now, .history priceId (.ok v), .looked since] → result = .ok v →
          c'.entry? priceId = some ⟨v, some (since + ttl)⟩) := by
  cases h with
  | @found now _ e look live =>
    obtain rfl : log = [.looked now] := Sight.log_of_clock look
    exact ⟨now, .inl ⟨e, live, rfl, rfl, by rw [Cache.entry?_get, if_pos rfl, live]⟩⟩
  | @failed now _ _ why look miss asked =>
    have hlog : log = _ ++ [.history priceId (.error why)] := Sight.log_of_watch asked
    rw [Sight.log_of_clock look] at hlog
    obtain rfl := hlog
    exact ⟨now, .inr ⟨miss, .failed why, by simp⟩⟩
  | @kept now later _ _ _ v _ look miss asked look' put =>
    obtain rfl := Sight.log_of_put look asked look'
    obtain ⟨hshown, hentry⟩ := Cache.entry?_put_ttl put
    refine ⟨now, .inr ⟨miss, .told v later hshown, fun w since hlog hw => ?_⟩⟩
    cases hw
    cases hlog
    exact hentry
  | @unkept now later _ _ _ v look miss asked look' put =>
    obtain rfl := Sight.log_of_put look asked look'
    exact ⟨now, .inr ⟨miss, .unkept v later (Cache.put?_ttl_eq_none put), by simp⟩⟩

/-! ## Every reading -/

theorem Visit.mem_looks_concat {vs : List (Visit (List Sight))} {v : Visit (List Sight)} {t : Ticks} :
    t ∈ looks (vs ++ [v]) ↔ t ∈ looks vs ∨ .looked t ∈ v.log := by
  have htime (x : Sight) : x.time? = some t ↔ x = .looked t := by cases x <;> simp [Sight.time?]
  simp [looks, htime]

theorem Visit.Kept.looked {vs : List (Visit (List Sight))} {priceId : String} {h : History} {since : Ticks}
    (hk : Kept vs priceId h since) : since ∈ looks vs := by
  obtain ⟨first, before, after, rfl, -⟩ := hk
  simp [looks, Visit.log, Sight.time?]

/-- What is kept is still on the shelf, for as long as it is to be kept or longer; or the clock has
shown that its time is over. -/
theorem Visits.kept_or_over {vs : List (Visit (List Sight))} {shelf : Shelf} {s : σ}
    (hv : Visits (b.watched.shelved (Sight.clock clock) config) [] vs shelf s) {priceId : String} {h : History}
    {since : Ticks} (hk : Visit.Kept vs priceId h since) :
    (∃ e ends, shelf.histories.entry? priceId = some e ∧ e.expiresAt = some ends ∧
        since + config.amountsTicks ≤ ends) ∨
      ∃ t ∈ Visit.looks vs, since + config.amountsTicks ≤ t := by
  obtain ⟨first, hk⟩ := hk
  induction hv with
  | start =>
    obtain ⟨before, after, heq, -⟩ := hk
    simp at heq
  | @visit vs shelf shelf' s s' v hv hleads ih =>
    -- Where a call leaves the entry of the price, it is as it was before the call.
    have old (hentry : shelf'.histories.entry? priceId = shelf.histories.entry? priceId)
        (hk : Visit.Standing vs priceId [.looked first, .history priceId (.ok h), .looked since] h) :
        (∃ e ends, shelf'.histories.entry? priceId = some e ∧ e.expiresAt = some ends ∧
            since + config.amountsTicks ≤ ends) ∨
          ∃ t ∈ Visit.looks (vs ++ [v]), since + config.amountsTicks ≤ t := by
      rw [hentry]
      refine (ih hk).imp_right fun hx => ?_
      obtain ⟨t, ht, hover⟩ := hx
      exact ⟨t, Visit.mem_looks_concat.2 (.inl ht), hover⟩
    rcases hk.of_concat with rfl | ⟨hstands, hnot⟩
    · obtain ⟨now, ⟨e, -, hlog, -⟩ | ⟨-, hasked, hput⟩⟩ := (Shelf.history_reading hleads).seen
      · simp at hlog
      · cases hasked
        exact .inl ⟨_, _, hput h since rfl rfl, rfl, le_refl _⟩
    · rcases hleads.entry?_cases priceId with ⟨hsame, -⟩ | ⟨log, result, rfl, hreading⟩ | ⟨happends, -⟩
      · exact old hsame hstands
      · obtain ⟨now, ⟨e, hlive, -, -, hentry⟩ | ⟨hmiss, hasked, -⟩⟩ := hreading.seen
        · exact old (hentry.trans (Cache.live?_eq_some hlive).symm) hstands
        · right
          rcases ih hstands with ⟨e, ends, hentry, hends, hle⟩ | ⟨t, ht, hover⟩
          · have hexpired := Cache.expired_of_miss hmiss hentry
            rw [CacheEntry.isExpired, hends] at hexpired
            exact ⟨now, Visit.mem_looks_concat.2 (.inr hasked.looked), hle.trans (by simpa using hexpired)⟩
          · exact ⟨t, Visit.mem_looks_concat.2 (.inl ht), hover⟩
      · exact absurd happends hnot
  | elapse s' hv ih => exact ih hk

/-- In every run whose clock does not go back, a reading either looks at the clock only and repeats what
is kept, if that was put within the time to keep; or all that is kept is older, and it asks the backend
once and comes to its answer. Only calls about the same price matter for which of the two it is, and
where nothing is to be kept it is always the latter. -/
theorem every_reading_is_recent (b : Backend m) (clock : m Ticks) (config : CacheConfig)
    {vs : List (Visit (List Sight))} {shelf : Shelf} {s : σ}
    (hv : Visits (b.watched.shelved (Sight.clock clock) config) [] vs shelf s)
    (hforward : (Visit.looks vs).Pairwise (· ≤ ·)) (before after : List (Visit (List Sight))) (priceId : String)
    (log : List Sight) (result : Except Stop History) (hvs : vs = before ++ .history priceId log result :: after) :
    ∃ now,
      (0 < config.amountsTtl ∧ log = [.looked now] ∧ ∃ h since, result = .ok h ∧
        Visit.Kept (before.filter (·.concerns priceId)) priceId h since ∧ now < since + config.amountsTicks) ∨
      (Asked config.amountsTicks priceId now log result ∧ ∀ h since,
        Visit.Kept (before.filter (·.concerns priceId)) priceId h since → since + config.amountsTicks ≤ now) := by
  obtain ⟨shelf₁, s₁, shelf₂, s₂, hbefore, hleads⟩ := hv.at_call hvs
  obtain ⟨now, hseen⟩ := (Shelf.history_reading hleads).seen
  have hlooked : .looked now ∈ log := by
    rcases hseen with ⟨e, -, rfl, -⟩ | ⟨-, hasked, -⟩
    · exact List.mem_cons_self
    · exact hasked.looked
  have hpast : ∀ t ∈ Visit.looks before, t ≤ now := by
    intro t ht
    rw [hvs, Visit.looks, List.flatMap_append, List.flatMap_cons] at hforward
    have hnow : now ∈ log.filterMap Sight.time? := List.mem_filterMap.2 ⟨_, hlooked, rfl⟩
    exact (List.pairwise_append.1 hforward).2.2 t ht now (List.mem_append_left _ hnow)
  refine ⟨now, hseen.imp ?_ ?_⟩
  · intro hfound
    obtain ⟨e, hlive, rfl, rfl, -⟩ := hfound
    obtain ⟨since, hkept, hends⟩ := hbefore.entry_kept (Cache.live?_eq_some hlive)
    have hgood := Cache.good_of_live hlive
    rw [CacheEntry.isExpired, hends] at hgood
    have hlt : now < since + config.amountsTicks := by simpa using hgood
    have hle : since ≤ now := hpast since hkept.looked
    have hticks : 0 < config.amountsTtl * ticksPerSecond := Nat.pos_of_lt_add_right (hle.trans_lt hlt)
    obtain ⟨first, hstanding⟩ := hkept
    exact ⟨Nat.pos_of_mul_pos_right hticks, rfl, e.value, since, rfl,
      ⟨first, Visit.standing_filter.2 hstanding⟩, hlt⟩
  · intro hasked
    obtain ⟨hmiss, hasked, -⟩ := hasked
    refine ⟨hasked, fun h since hkept => ?_⟩
    obtain ⟨first, hstanding⟩ := hkept
    rcases hbefore.kept_or_over ⟨first, Visit.standing_filter.1 hstanding⟩ with
      ⟨e, ends, hentry, hends, hle⟩ | ⟨t, ht, hover⟩
    · have hexpired := Cache.expired_of_miss hmiss hentry
      rw [CacheEntry.isExpired, hends] at hexpired
      exact hle.trans (by simpa using hexpired)
    · exact hover.trans (hpast t ht)

/-- So it is in the store, by a clock that goes on at every look: a second reading repeats what the first
one was told. -/
theorem second_reading_is_recent_in_store :
    let b := (Store.backend (m := StateM Ticks)).watched.shelved (Sight.clock Store.ticking) ⟨5, 5⟩
    let h := Store.sample.historyOf "price_1"
    let first : Visit (List Sight) :=
      .history "price_1" [.looked 0, .history "price_1" (.ok h), .looked 1] (.ok h)
    let vs := [first, .history "price_1" [.looked 2] (.ok h)]
    (∃ shelf s, Visits b [] vs shelf s) ∧ (Visit.looks vs).Pairwise (· ≤ ·) ∧
      ∃ since, Visit.Kept [first] "price_1" h since ∧ 2 < since + 5000 := by
  intro b h first vs
  let x := (b.history "price_1").exec (Shelf.empty, [], Store.sample, 0)
  have hfirst : Visits b [] [.history "price_1" x.2.2.1 x.1] x.2.1 x.2.2.2 :=
    (Visits.start (Store.sample, 0)).read "price_1"
  have hlog : x.2.2.1 = [.looked 0, .history "price_1" (.ok h), .looked 1] := rfl
  have hresult : x.1 = .ok h := rfl
  rw [hlog, hresult] at hfirst
  have hvs : Visits b [] vs _ _ := hfirst.read "price_1"
  have hforward : (Visit.looks vs).Pairwise (· ≤ ·) := by
    have hlooks : Visit.looks vs = [0, 1, 2] := rfl
    rw [hlooks]
    decide
  obtain ⟨now, ⟨-, hlog, _, since, hh, hkept, hlt⟩ | ⟨hasked, -⟩⟩ :=
    every_reading_is_recent Store.backend Store.ticking ⟨5, 5⟩ hvs hforward [first] [] "price_1" [.looked 2]
      (.ok h) rfl
  · cases hh
    cases hlog
    have hmine : [first].filter (·.concerns "price_1") = [first] := rfl
    rw [hmine] at hkept
    exact ⟨⟨_, _, hvs⟩, hforward, since, hkept, hlt⟩
  · nomatch hasked

/-- Where the clock cannot show the end of the longest time to keep, the answer of the backend is lost:
the reading halts. -/
theorem longest_kept_reading_halts :
    let b := (Store.backend (m := StateM Ticks)).watched.shelved (Sight.clock Store.ticking) ⟨5, 2 ^ 64 - 1⟩
    let h := Store.sample.historyOf "price_1"
    ∃ shelf s, Visits b [] [.history "price_1" [.looked 0, .history "price_1" (.ok h), .looked 1]
      (.error .halt)] shelf s := by
  intro b h
  let x := (b.history "price_1").exec (Shelf.empty, [], Store.sample, 0)
  have hlog : x.2.2.1 = [.looked 0, .history "price_1" (.ok h), .looked 1] := rfl
  have hresult : x.1 = .error .halt := rfl
  have hvs : Visits b [] [.history "price_1" x.2.2.1 x.1] x.2.1 x.2.2.2 :=
    (Visits.start (Store.sample, 0)).read "price_1"
  rw [hlog, hresult] at hvs
  exact ⟨x.2.1, x.2.2.2, hvs⟩

end Tariff
