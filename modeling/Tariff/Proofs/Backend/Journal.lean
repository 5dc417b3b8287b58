import Mathlib
import Tariff.Proofs.Backend.Ledger
/-
  Tariff.Proofs.Backend.Journal — what a run orders, and what the clock shows it.

  A journaled backend writes every order down before it is given, whatever comes of it, and a
  journaled clock every reading. Nothing is ever struck out, so a journal with a reading whose end
  the clock cannot show is late for good (`deadline_journaled`).
-/

namespace Tariff

open Stateful (exec)

/-- What a run orders, and what the clock shows it, oldest first. -/
structure Journal where
  orders : List (String × NewVersion)
  readings : List Ticks

def Journal.empty : Journal := ⟨[], []⟩

/-- The journal has a reading at which the clock could not show the end of what is kept. -/
def Journal.Late (config : CacheConfig) (j : Journal) : Prop := ∃ t ∈ j.readings, ¬ config.Shown t

variable {m : Type → Type} [Monad m] {σ D : Type} [Stateful m σ]

/-- A backend whose orders are written down. -/
def Backend.journaled (b : Backend m) : Backend (StateT Journal m) where
  currencies := b.currencies.lift
  history priceId := (b.history priceId).lift
  append priceId new := do
    modify fun j => { j with orders := j.orders ++ [(priceId, new)] }
    (b.append priceId new).lift
  lead := b.lead

/-- A clock whose readings are written down. -/
def Journal.clock (clock : m Ticks) : StateT Journal m Ticks := fun j => do
  let t ← clock
  return (t, { j with readings := j.readings ++ [t] })

@[simp] theorem Journal.exec_clock (clock : m Ticks) (j : Journal) (s : σ) :
    exec (Journal.clock clock) (j, s) =
      ((exec clock s).1, { j with readings := j.readings ++ [(exec clock s).1] }, (exec clock s).2) := by
  simp [Stateful.exec_stateT, StateT.run, Journal.clock]

theorem Backend.exec_append_journaled (b : Backend m) (priceId : String) (new : NewVersion) (j : Journal) (s : σ) :
    (b.journaled.append priceId new).exec (j, s) =
      (((b.append priceId new).exec s).1, { j with orders := j.orders ++ [(priceId, new)] },
        ((b.append priceId new).exec s).2) := by
  simp only [journaled, Act.exec_bind, Act.exec_modify, Act.exec_lift]

/-- The ledger of what was ordered and of what it came to. -/
def Ledger.journaled (l : Ledger D) : Ledger (List (String × NewVersion) × D) where
  books d := l.books d.2
  append d priceId new :=
    ((l.append d.2 priceId new).1, d.1 ++ [(priceId, new)], (l.append d.2 priceId new).2)

theorem Ledger.Lawful.journaled {l : Ledger D} (h : l.Lawful) : l.journaled.Lawful where
  currencies d priceId new := h.currencies d.2 priceId new
  other d priceId new q hq := h.other d.2 priceId new q hq
  failed he := h.failed he

theorem Steady.journaled {b : Backend m} {ledger : Ledger D} {has : σ → D → Prop} (hb : Steady b ledger has) :
    Steady b.journaled ledger.journaled (fun (s : Journal × σ) d => s.1.orders = d.1 ∧ has s.2 d.2) where
  currencies := by
    intro x y hx
    obtain ⟨j, s⟩ := x
    obtain ⟨orders, d⟩ := y
    obtain ⟨rfl, hs⟩ := hx
    obtain ⟨hr, ht⟩ := hb.currencies hs
    unfold Act.Ensures
    rw [Backend.journaled, Act.exec_lift]
    exact ⟨hr, rfl, ht⟩
  history := by
    intro x y priceId hx
    obtain ⟨j, s⟩ := x
    obtain ⟨orders, d⟩ := y
    obtain ⟨rfl, hs⟩ := hx
    obtain ⟨hr, ht⟩ := hb.history priceId hs
    unfold Act.Ensures
    rw [Backend.journaled, Act.exec_lift]
    exact ⟨hr, rfl, ht⟩
  append := by
    intro x y priceId new hx
    obtain ⟨j, s⟩ := x
    obtain ⟨orders, d⟩ := y
    obtain ⟨rfl, hs⟩ := hx
    obtain ⟨hr, ht⟩ := hb.append priceId new hs
    unfold Act.Ensures
    rw [Backend.exec_append_journaled]
    exact ⟨hr, rfl, ht⟩

/-- Readings only get more, and one whose end the clock cannot show makes it late. -/
theorem deadline_journaled (b : Backend m) (clock : m Ticks) (config : CacheConfig) :
    Deadline b.journaled (Journal.clock clock) config (fun s : Journal × σ => s.1.Late config) where
  look := by
    intro x hx
    obtain ⟨j, s⟩ := x
    obtain ⟨t, ht, hlate⟩ := hx
    rw [Journal.exec_clock]
    exact ⟨t, List.mem_append_left _ ht, hlate⟩
  currencies := by
    intro x hj
    obtain ⟨j, s⟩ := x
    rw [Backend.journaled, Act.exec_lift]
    exact hj
  history := by
    intro priceId x hj
    obtain ⟨j, s⟩ := x
    rw [Backend.journaled, Act.exec_lift]
    exact hj
  append := by
    intro priceId new x hj
    obtain ⟨j, s⟩ := x
    rw [Backend.exec_append_journaled]
    exact hj
  shows := by
    intro x hj
    obtain ⟨j, s⟩ := x
    rw [Journal.exec_clock] at hj ⊢
    by_contra hshown
    exact hj ⟨_, List.mem_append_right _ (List.mem_singleton_self _), hshown⟩

end Tariff
