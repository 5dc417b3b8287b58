import Mathlib
import Tariff.Proofs.Backend.Books
/-
  Tariff.Proofs.Backend.Ledger — backends whose answers follow from what they keep.

  A ledger says how data become books, and what an append comes to; it is lawful if an append
  touches the history of one price only, and none when it fails. A backend is steady on a ledger
  if every reading is answered from the books and every append goes as the ledger says.

  Two backends are alike when their calls agree. A steady backend behind a shelf is like the
  backend itself (`Steady.alike_shelved`), as long as the clock can show the end of what is kept.
  `journaled` writes down what a run orders and what the clock showed it.
-/

namespace Tariff

open Stateful (exec)

/-- How data are read as books, and what an append comes to. -/
structure Ledger (D : Type) where
  books : D → Books
  append : D → String → NewVersion → Except Stop Version × D

/-- An append leaves the currencies and all other histories, and everything if it fails. -/
structure Ledger.Lawful {D : Type} (l : Ledger D) : Prop where
  currencies (d : D) (priceId : String) (new : NewVersion) :
    (l.books (l.append d priceId new).2).currencies = (l.books d).currencies
  other (d : D) (priceId : String) (new : NewVersion) (q : String) : q ≠ priceId →
    (l.books (l.append d priceId new).2).history q = (l.books d).history q
  failed {d : D} {priceId : String} {new : NewVersion} {e : Stop} : (l.append d priceId new).1 = .error e →
    (l.books (l.append d priceId new).2).history priceId = (l.books d).history priceId

variable {m n : Type → Type} [Monad m] [Monad n] {σ τ D : Type} [Stateful m σ] [Stateful n τ]

/-- Readings are answered from the books, and appends go as the ledger says; `has` says which data
a state has. -/
structure Steady (b : Backend m) (ledger : Ledger D) (has : σ → D → Prop) : Prop where
  currencies {s : σ} {d : D} : has s d →
    b.currencies.Ensures s fun r t => r = .ok (ledger.books d).currencies ∧ has t d
  history {s : σ} {d : D} (priceId : String) : has s d →
    (b.history priceId).Ensures s fun r t => r = .ok ((ledger.books d).history priceId) ∧ has t d
  append {s : σ} {d : D} (priceId : String) (new : NewVersion) : has s d →
    (b.append priceId new).Ensures s fun r t =>
      r = (ledger.append d priceId new).1 ∧ has t (ledger.append d priceId new).2

/-! ## Two backends -/

/-- Every call of one backend agrees with that of the other, and of two readings at once the same is done
first. -/
structure Backend.Alike (late : σ → Prop) (R : σ → τ → Prop) (b : Backend m) (b' : Backend n) : Prop where
  currencies : Act.Agree late R b.currencies b'.currencies
  history (priceId : String) : Act.Agree late R (b.history priceId) (b'.history priceId)
  append (priceId : String) (new : NewVersion) : Act.Agree late R (b.append priceId new) (b'.append priceId new)
  lead : b.lead = b'.lead

/-- What makes it late for a backend and a clock: once it is late it stays late, and before that the
clock can show the end of what is kept. -/
structure Deadline (b : Backend m) (clock : m Ticks) (config : CacheConfig) (late : σ → Prop) : Prop where
  look : ∀ s, late s → late (exec clock s).2
  currencies : b.currencies.Keeps late
  history (priceId : String) : (b.history priceId).Keeps late
  append (priceId : String) (new : NewVersion) : (b.append priceId new).Keeps late
  shows : ∀ s, ¬ late (exec clock s).2 → config.Shown (exec clock s).1

/-- The states have the same data, and the shelf is faithful to them. -/
def Ledger.Shelved (l : Ledger D) (has : σ → D → Prop) (s : Shelf × σ) (t : σ) : Prop :=
  ∃ d, has s.2 d ∧ has t d ∧ s.1.Faithful (l.books d)

variable {b : Backend m} {ledger : Ledger D} {has : σ → D → Prop} {clock : m Ticks} {config : CacheConfig}
  {late : σ → Prop}

theorem Steady.currencies_shelved (hb : Steady b ledger has) (hclock : ∀ s d, has s d → has (exec clock s).2 d)
    (hlate : Deadline b clock config late) :
    Act.Agree (fun s => late s.2) (ledger.Shelved has) (b.shelved clock config).currencies b.currencies where
  stays := Shelf.currencies_keeps config hlate.look hlate.currencies
  same := by
    intro x t hx
    obtain ⟨shelf, s⟩ := x
    obtain ⟨d, hs, ht, hf⟩ := hx
    have hread : (Shelf.readThrough clock config.currenciesTicks Shelf.currenciesKey b.currencies).Ensures
        (shelf.currencies, s) fun r u => late u.2 ∨ (r = .ok (ledger.books d).currencies ∧ has u.2 d ∧
          u.1.Holds fun _ => (ledger.books d).currencies) :=
      Shelf.readThrough_answers hf.1 (fun s => hclock s d) (fun s h => (hlate.shows s h).1)
        (fun _ => hb.currencies) hs
    obtain ⟨hr, ht⟩ := hb.currencies ht
    simp only [Backend.shelved, Shelf.exec_onCurrencies]
    rcases hread with hl | ⟨hr', hs', hholds⟩
    · exact .inl hl
    · exact .inr ⟨hr'.trans hr.symm, d, hs', ht, hholds, hf.2⟩

theorem Steady.history_shelved (hb : Steady b ledger has) (hclock : ∀ s d, has s d → has (exec clock s).2 d)
    (hlate : Deadline b clock config late) (priceId : String) :
    Act.Agree (fun s => late s.2) (ledger.Shelved has) ((b.shelved clock config).history priceId)
      (b.history priceId) where
  stays := Shelf.history_keeps config priceId hlate.look (hlate.history priceId)
  same := by
    intro x t hx
    obtain ⟨shelf, s⟩ := x
    obtain ⟨d, hs, ht, hf⟩ := hx
    have hread : (Shelf.readThrough clock config.amountsTicks priceId (b.history priceId)).Ensures
        (shelf.histories, s) fun r u => late u.2 ∨ (r = .ok ((ledger.books d).history priceId) ∧ has u.2 d ∧
          u.1.Holds (ledger.books d).history) :=
      Shelf.readThrough_answers hf.2 (fun s => hclock s d) (fun s h => (hlate.shows s h).2)
        (fun _ => hb.history priceId) hs
    obtain ⟨hr, ht⟩ := hb.history priceId ht
    simp only [Backend.shelved, Shelf.exec_onHistories]
    rcases hread with hl | ⟨hr', hs', hholds⟩
    · exact .inl hl
    · exact .inr ⟨hr'.trans hr.symm, d, hs', ht, hf.1, hholds⟩

/-- An append through the shelf takes away what it has made wrong; where it fails there is nothing. -/
theorem Steady.append_shelved (hl : ledger.Lawful) (hb : Steady b ledger has)
    (hlate : Deadline b clock config late) (priceId : String) (new : NewVersion) :
    Act.Agree (fun s => late s.2) (ledger.Shelved has) ((b.shelved clock config).append priceId new)
      (b.append priceId new) where
  stays := by
    intro x hs
    obtain ⟨shelf, s⟩ := x
    have ha := hlate.append priceId new s hs
    rw [Shelf.exec_append_shelved]
    rcases hx : (b.append priceId new).exec s with ⟨_ | v, u⟩ <;> rw [hx] at ha <;> exact ha
  same := by
    intro x t hx
    obtain ⟨shelf, s⟩ := x
    obtain ⟨d, hs, ht, hf⟩ := hx
    obtain ⟨hr, hhas⟩ := hb.append priceId new hs
    obtain ⟨hr', hhas'⟩ := hb.append priceId new ht
    have hc := hl.currencies d priceId new
    have ho := hl.other d priceId new
    right
    rw [Shelf.exec_append_shelved, hr']
    rcases hx : (b.append priceId new).exec s with ⟨e | v, u⟩ <;> rw [hx] at hr hhas
    · refine ⟨hr, _, hhas, hhas', hc ▸ hf.1, ?_⟩
      have hsame : (ledger.books (ledger.append d priceId new).2).history = (ledger.books d).history := by
        funext q
        by_cases hq : q = priceId
        · rw [hq]
          exact hl.failed hr.symm
        · exact ho q hq
      rw [hsame]
      exact hf.2
    · exact ⟨hr, _, hhas, hhas', hf.remove hc ho⟩

/-- A steady backend behind a shelf is like the backend itself. -/
theorem Steady.alike_shelved (hl : ledger.Lawful) (hb : Steady b ledger has)
    (hclock : ∀ s d, has s d → has (exec clock s).2 d) (hlate : Deadline b clock config late) :
    Backend.Alike (fun s => late s.2) (ledger.Shelved has) (b.shelved clock config) b :=
  ⟨hb.currencies_shelved hclock hlate, hb.history_shelved hclock hlate, hb.append_shelved hl hlate, rfl⟩

end Tariff
