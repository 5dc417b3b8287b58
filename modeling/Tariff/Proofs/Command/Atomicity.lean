import Mathlib
import Tariff.Proofs.Backend.Store
import Tariff.Proofs.Command.Course
/-
  Tariff.Proofs.Command.Atomicity — what an addition that fails has done.

  Adding a version asks the backend four times: two readings, an append, and a reading of the new
  history to show it. Of a backend that fails cleanly (`FailsCleanly`: readings leave what is kept,
  and so does an append that fails) the first three leave what is kept when they fail, whatever of
  them fails and whether or not there is a shelf before them.

  The fourth comes after the append. An addition that it ends has appended, and fails with no more
  than what the reading failed with, or because a page has no room
  (`failed_addition_is_clean_or_late`). A shelf makes that a matter of course: the readings before the
  append are answered from it, and the one after it is not, since the append takes the history from
  the shelf (`failed_addition_has_appended`).
-/

namespace Tariff

open Stateful (exec)

variable {m : Type → Type} [Monad m] {σ D : Type} [Stateful m σ]

/-- Readings leave what is kept, whatever they answer, and an append that fails leaves it. -/
structure FailsCleanly (b : Backend m) (kept : σ → D) : Prop where
  currencies (s : σ) : kept (b.currencies.exec s).2 = kept s
  history (priceId : String) (s : σ) : kept ((b.history priceId).exec s).2 = kept s
  append {priceId : String} {new : NewVersion} {s t : σ} {e : Stop} :
    (b.append priceId new).exec s = (.error e, t) → kept t = kept s

namespace FailsCleanly

variable {b : Backend m} {kept : σ → D}

/-- A backend that appends to its books fails cleanly. -/
theorem of_appendOnly {books : σ → Books} (hb : AppendOnly b fun s d => books s = d) : FailsCleanly b books where
  currencies s := (hb.currencies (s := s) rfl).1
  history priceId s := (hb.history (s := s) priceId rfl).1
  append {priceId new s t e} hx := by
    have happend := hb.append (s := s) priceId new rfl
    unfold Act.Ensures at happend
    rw [hx] at happend
    exact happend

theorem currencies_keeps (hb : FailsCleanly b kept) (d : D) : b.currencies.Keeps fun s => kept s = d :=
  fun s hs => (hb.currencies s).trans hs

theorem history_keeps (hb : FailsCleanly b kept) (priceId : String) (d : D) :
    (b.history priceId).Keeps fun s => kept s = d :=
  fun s hs => (hb.history priceId s).trans hs

/-- Behind a shelf a backend that fails cleanly still does. -/
theorem shelved (hb : FailsCleanly b kept) {clock : m Ticks} (hclock : ∀ s, kept (exec clock s).2 = kept s)
    (config : CacheConfig) : FailsCleanly (b.shelved clock config) fun s => kept s.2 where
  currencies s := Shelf.currencies_keeps (I := fun t => kept t = kept s.2) config
    (fun t ht => (hclock t).trans ht) (hb.currencies_keeps _) s rfl
  history priceId s := Shelf.history_keeps (I := fun t => kept t = kept s.2) config priceId
    (fun t ht => (hclock t).trans ht) (hb.history_keeps priceId _) s rfl
  append {priceId new s t e} hx := by
    obtain ⟨shelf, s⟩ := s
    rw [Shelf.exec_append_shelved] at hx
    rcases ha : (b.append priceId new).exec s with ⟨e' | v, u⟩ <;> rw [ha] at hx <;> cases hx
    exact hb.append ha

end FailsCleanly

namespace Command

/-! ## After the append -/

theorem exec_announce (b : Backend m) (color : Bool) (priceId : String) (currencies : List Currency) (now : Instant)
    (v : Version) (pages : List String) (u : σ) :
    (announce b color priceId currencies now v).exec (pages, u) =
      match createdLine? currencies v with
      | none => (.error .halt, pages, u)
      | some line =>
        let shown := pages ++ [Tone.success.paint color line]
        match (b.history priceId).exec u with
        | (.error e, t) => (.error e, shown, t)
        | (.ok renewed, t) =>
          match View.historyPage? color priceId renewed currencies now with
          | none => (.error .halt, shown, t)
          | some page => (.ok (), shown ++ [page], t) := by
  simp only [announce, sayHistory, Act.exec_bind, Act.exec_ofOption]
  cases createdLine? currencies v with
  | none => rfl
  | some line =>
    simp only [Option.elim_some, Console.exec_say, Console.exec_perform]
    rcases (b.history priceId).exec u with ⟨e | renewed, t⟩
    · rfl
    · cases hpage : View.historyPage? color priceId renewed currencies now <;> simp [hpage]

/-- What follows an append stops for a page that has no room, or because the history cannot be read. -/
theorem announce_stops {b : Backend m} {color : Bool} {priceId : String} {currencies : List Currency} {now : Instant}
    {v : Version} {pages : List String} {u : σ} {e : Stop}
    (hx : ((announce b color priceId currencies now v).exec (pages, u)).1 = .error e) :
    e = .halt ∨ (b.history priceId).exec u =
      (.error e, ((announce b color priceId currencies now v).exec (pages, u)).2.2) := by
  rw [exec_announce] at hx ⊢
  cases hline : createdLine? currencies v with
  | none =>
    rw [hline] at hx
    cases hx
    exact .inl rfl
  | some line =>
    rcases hread : (b.history priceId).exec u with ⟨e' | renewed, t⟩ <;> simp only [hline, hread] at hx
    · cases hx
      exact .inr rfl
    · left
      cases hpage : View.historyPage? color priceId renewed currencies now <;> simp only [hpage] at hx <;> cases hx
      rfl

/-! ## Additions -/

/-- An addition ends in `t` having appended: it has read, accepted, been confirmed, and the append
has been made. -/
def HasAppended (b : Backend m) (kept : σ → D) (priceId : String) (p : Proposal) (confirmed : Bool) (now : Instant)
    (s : σ) (e : Stop) (t : σ) : Prop :=
  ∃ h cs r a v u, (survey b priceId).exec s = (.ok (h, cs), r) ∧ kept r = kept s ∧ p.validate cs h now = .ok a ∧
    confirmed = true ∧ (b.append priceId a.request).exec r = (.ok v, u) ∧ kept t = kept u ∧
    (e = .halt ∨ (b.history priceId).exec u = (.error e, t))

/-- An addition that stops leaves what is kept, unless it has appended. -/
def StopsCleanOrLate (b : Backend m) (kept : σ → D) : Prop :=
  ∀ (color : Bool) (priceId : String) (p : Proposal) (confirmed : Bool) (now : Instant) (pages pages' : List String)
    (s t : σ) (e : Stop), (addVersion b color priceId p confirmed now).exec (pages, s) = (.error e, pages', t) →
    kept t = kept s ∨ HasAppended b kept priceId p confirmed now s e t

variable {b : Backend m} {kept : σ → D}

theorem survey_leaves (hb : FailsCleanly b kept) (priceId : String) (s : σ) :
    kept ((survey b priceId).exec s).2 = kept s :=
  survey_keeps (hb.history_keeps priceId (kept s)) (hb.currencies_keeps (kept s)) s rfl

/-- Whatever ends an addition, what is kept is as before or the version has been appended. -/
theorem Adding.stops (hb : FailsCleanly b kept) {color : Bool} {priceId : String} {p : Proposal} {confirmed : Bool}
    {now : Instant} {s t : σ} {result : Except Stop Unit} {e : Stop}
    (h : Adding b color priceId p confirmed now s result t) (he : result = .error e) :
    kept t = kept s ∨ HasAppended b kept priceId p confirmed now s e t := by
  have hsurvey := survey_leaves hb priceId s
  cases h with
  | unnamed => exact .inl rfl
  | unread named read =>
    rw [read] at hsurvey
    exact .inl hsurvey
  | refused named read why =>
    rw [read] at hsurvey
    exact .inl hsurvey
  | unappended named read accepted yes order =>
    rw [read] at hsurvey
    exact .inl ((hb.append order).trans hsurvey)
  | @appended r u h cs a v pages named read accepted yes order =>
    rw [read] at hsurvey
    refine .inr ⟨h, cs, r, a, v, u, read, hsurvey, accepted, yes, order, ?_, announce_stops he⟩
    exact announce_keeps (hb.history_keeps priceId (kept u)) color cs now v (pages, u) rfl

theorem stopsCleanOrLate (hb : FailsCleanly b kept) : StopsCleanOrLate b kept := by
  intro color priceId p confirmed now pages pages' s t e hx
  have hcourse := addVersion_course b color priceId p confirmed now pages s
  rw [hx] at hcourse
  exact hcourse.stops hb rfl

/-- An addition that stops has left what is kept, or it has appended what was accepted and confirmed
and could not show it: the reading of the new history failed, or a page has no room. So it is on any
backend that fails cleanly, whatever of its calls fail, and behind a shelf, for any clock and any
times to keep. -/
theorem failed_addition_is_clean_or_late (b : Backend m) (kept : σ → D) (hb : FailsCleanly b kept) (clock : m Ticks)
    (hclock : ∀ s, kept (exec clock s).2 = kept s) (config : CacheConfig) :
    StopsCleanOrLate b kept ∧ StopsCleanOrLate (b.shelved clock config) fun s => kept s.2 :=
  ⟨stopsCleanOrLate hb, stopsCleanOrLate (hb.shelved hclock config)⟩

/-- So it is with the books of a store. -/
theorem failed_addition_is_clean_or_late_in_store :
    FailsCleanly (Store.backend (m := StateM Ticks)) (fun s => s.1.books) ∧
      (∀ s : Store × Ticks, (exec Store.ticking s).2.1.books = s.1.books) ∧
      StopsCleanOrLate (Store.backend (m := StateM Ticks)) (fun s => s.1.books) ∧
      StopsCleanOrLate (Store.backend.shelved Store.ticking ⟨5, 5⟩) fun s => s.2.1.books := by
  have hb : FailsCleanly (Store.backend (m := StateM Ticks)) fun s => s.1.books := .of_appendOnly Store.appendOnly
  exact ⟨hb, fun _ => rfl,
    failed_addition_is_clean_or_late Store.backend (fun s => s.1.books) hb Store.ticking (fun _ => rfl) ⟨5, 5⟩⟩

/-- A store whose history is on the shelf begins to fail at readings of it. An addition is decided on
what is on the shelf, is appended, and then fails. -/
theorem failed_addition_has_appended :
    let b := Store.backend.shelved Store.ticking ⟨300, 300⟩
    let s := ((b.history "price_1").exec (Shelf.empty, Store.sample, 0)).2
    let failing : Shelf × Store × Ticks := (s.1, { s.2.1 with failing := [(.history, "out of reach")] }, s.2.2)
    let r := (addVersion b false "price_1" ⟨"USD", "10", "2024-06-01"⟩ true Instant.epoch).exec ([], failing)
    r.1 = .error (.fault (.backend "out of reach")) ∧ failing.2.1.appended = 0 ∧ r.2.2.2.1.appended = 1 ∧
      (failing.2.1.historyOf "price_1").length = 1 ∧ (r.2.2.2.1.historyOf "price_1").length = 2 := by
  decide +kernel

end Command

end Tariff
