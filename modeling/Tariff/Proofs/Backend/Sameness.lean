import Mathlib
import Tariff.Proofs.Backend.Ledger
/-
  Tariff.Proofs.Backend.Sameness — operations that come to the same.

  Two monads may keep different states for the same thing, such as one that also writes down what
  happens. From related states their operations come to the same and to related states (`Same`).
  Backends that are alike in this way are so behind shelves, if their clocks show the same
  (`Backend.Alike.shelved`).
-/

namespace Tariff

open Stateful (exec)

variable {m n : Type → Type} [Monad m] [Monad n] {σ τ : Type} [Stateful m σ] [Stateful n τ]

/-! ## Operations -/

/-- From related states the operations come to the same and to related states. -/
def Stateful.Same {α : Type} (R : σ → τ → Prop) (x : m α) (y : n α) : Prop :=
  ∀ s t, R s t → (exec x s).1 = (exec y t).1 ∧ R (exec x s).2 (exec y t).2

open Stateful (Same)

variable {R : σ → τ → Prop} {α β : Type}

theorem Stateful.Same.pure (a : α) : Same R (Pure.pure a : m α) (Pure.pure a : n α) := by
  intro s t h
  rw [Stateful.exec_pure, Stateful.exec_pure]
  exact ⟨rfl, h⟩

theorem Stateful.Same.bind {x : m α} {y : n α} {f : α → m β} {g : α → n β} (hxy : Same R x y)
    (hfg : ∀ a, Same R (f a) (g a)) : Same R (x >>= f) (y >>= g) := by
  intro s t h
  obtain ⟨hsame, hrelated⟩ := hxy s t h
  rw [Stateful.exec_bind, Stateful.exec_bind, ← hsame]
  exact hfg _ _ _ hrelated

/-- It is never late. -/
def Never (_ : σ) : Prop := False

theorem Act.keeps_never (x : Act m α) : x.Keeps Never := fun _ h => h.elim

theorem Act.agree_liftM {x : m α} {y : n α} (h : Same R x y) :
    Act.Agree Never R (liftM x : Act m α) (liftM y : Act n α) where
  stays := keeps_never _
  same s t hst := by
    rw [exec_liftM, exec_liftM, (h s t hst).1]
    exact .inr ⟨rfl, (h s t hst).2⟩

theorem Act.agree_exceptT_lift {x : m α} {y : n α} (h : Same R x y) :
    Act.Agree (m := m) (n := n) Never R (ExceptT.lift x) (ExceptT.lift y) where
  stays := keeps_never _
  same s t hst := by
    rw [exec_exceptT_lift, exec_exceptT_lift, (h s t hst).1]
    exact .inr ⟨rfl, (h s t hst).2⟩

/-! ## The shelf -/

/-- The states hold the same of their own, and the rest is related. -/
def Beside {ρ : Type} (R : σ → τ → Prop) (s : ρ × σ) (t : ρ × τ) : Prop := s.1 = t.1 ∧ R s.2 t.2

theorem Shelf.readThrough_agree {K V : Type} [DecidableEq K] {clock : m Ticks} {clock' : n Ticks} {read : Act m V}
    {read' : Act n V} (hclock : Same R clock clock') (hread : Act.Agree Never R read read') (ttl : Ticks) (key : K) :
    Act.Agree Never (Beside R) (Shelf.readThrough clock ttl key read)
      (Shelf.readThrough clock' ttl key read') where
  stays := Act.keeps_never _
  same := by
    intro x y hxy
    obtain ⟨c, s⟩ := x
    obtain ⟨_, t⟩ := y
    obtain ⟨rfl, hst⟩ := hxy
    right
    obtain ⟨hnow, hst'⟩ := hclock s t hst
    rw [exec_readThrough, exec_readThrough, ← hnow]
    rcases c.get (exec clock s).1 key with ⟨_ | v, c'⟩
    · have hr := (hread.same _ _ hst').resolve_left id
      rcases hx : read.exec (exec clock s).2 with ⟨r, u⟩
      rcases hy : read'.exec (exec clock' t).2 with ⟨r', w⟩
      rw [hx, hy] at hr
      obtain ⟨rfl, huw⟩ := hr
      cases r with
      | error e => exact ⟨rfl, rfl, huw⟩
      | ok v =>
        obtain ⟨hlater, huw'⟩ := hclock u w huw
        simp only [← hlater]
        cases c'.put? (exec clock u).1 key v (some ttl) with
        | some c'' => exact ⟨rfl, rfl, huw'⟩
        | none => exact ⟨rfl, rfl, huw'⟩
    · exact ⟨rfl, rfl, hst'⟩

/-- Backends that are alike are so behind shelves, if their clocks show the same. -/
theorem Backend.Alike.shelved {b : Backend m} {b' : Backend n} (hb : b.Alike Never R b') {clock : m Ticks}
    {clock' : n Ticks} (hclock : Same R clock clock') (config : CacheConfig) :
    Backend.Alike Never (Beside R) (b.shelved clock config) (b'.shelved clock' config) where
  currencies := by
    refine ⟨Act.keeps_never _, fun x y hxy => .inr ?_⟩
    obtain ⟨shelf, s⟩ := x
    obtain ⟨_, t⟩ := y
    obtain ⟨rfl, hst⟩ := hxy
    have hread := Shelf.readThrough_agree hclock hb.currencies config.currenciesTicks Shelf.currenciesKey
    obtain ⟨hr, hc, huw⟩ :=
      (hread.same (shelf.currencies, s) (shelf.currencies, t) ⟨rfl, hst⟩).resolve_left id
    simp only [Backend.shelved, Shelf.exec_onCurrencies]
    exact ⟨hr, by rw [hc], huw⟩
  history priceId := by
    refine ⟨Act.keeps_never _, fun x y hxy => .inr ?_⟩
    obtain ⟨shelf, s⟩ := x
    obtain ⟨_, t⟩ := y
    obtain ⟨rfl, hst⟩ := hxy
    have hread := Shelf.readThrough_agree hclock (hb.history priceId) config.amountsTicks priceId
    obtain ⟨hr, hc, huw⟩ :=
      (hread.same (shelf.histories, s) (shelf.histories, t) ⟨rfl, hst⟩).resolve_left id
    simp only [Backend.shelved, Shelf.exec_onHistories]
    exact ⟨hr, by rw [hc], huw⟩
  append priceId new := by
    refine ⟨Act.keeps_never _, fun x y hxy => .inr ?_⟩
    obtain ⟨shelf, s⟩ := x
    obtain ⟨_, t⟩ := y
    obtain ⟨rfl, hst⟩ := hxy
    have happend := ((hb.append priceId new).same s t hst).resolve_left id
    rw [Shelf.exec_append_shelved, Shelf.exec_append_shelved]
    rcases hx : (b.append priceId new).exec s with ⟨r, u⟩
    rcases hy : (b'.append priceId new).exec t with ⟨r', w⟩
    rw [hx, hy] at happend
    obtain ⟨rfl, huw⟩ := happend
    cases r with
    | error e => exact ⟨rfl, rfl, huw⟩
    | ok v => exact ⟨rfl, rfl, huw⟩
  lead := hb.lead

end Tariff
