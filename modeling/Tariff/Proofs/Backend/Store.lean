import Mathlib
import Tariff.Backend.Store
import Tariff.Proofs.Backend.Ledger
/-
  Tariff.Proofs.Backend.Store — the store in memory appends to its books.

  Each of its calls is one equation of states. A call that is told to fail leaves the books; a
  version that is appended goes to the end of the history of its price (`appendOnly`). While its
  readings do not fail, its answers follow from what it keeps (`steady`).
-/

namespace Tariff.Store

variable {m : Type → Type} [Monad m] {σ : Type} [Stateful m σ]

/-- What a store keeps. -/
def books (s : Store) : Books := ⟨s.currencies, s.historyOf⟩

theorem historyOf_setHistory (s : Store) (priceId : String) (h : History) (q : String) :
    (s.setHistory priceId h).historyOf q = if q = priceId then h else s.historyOf q := by
  unfold historyOf setHistory
  rw [lookup_cons_eq, lookup_filter_ne]
  by_cases hq : q = priceId <;> simp [hq]

theorem books_append (s : Store) (priceId : String) (new : NewVersion) :
    (s.append priceId new).books = s.books.append priceId (s.versionOf priceId new) := by
  have hh : (s.append priceId new).historyOf =
      (s.setHistory priceId (s.historyOf priceId ++ [s.versionOf priceId new])).historyOf := rfl
  simp only [books, hh, Books.append, Books.mk.injEq]
  refine ⟨rfl, funext fun q => ?_⟩
  rw [historyOf_setHistory]
  by_cases hq : q = priceId <;> simp [hq]

theorem versionOf_fulfils (s : Store) (priceId : String) (new : NewVersion) :
    (s.versionOf priceId new).Fulfils new := ⟨rfl, rfl, rfl, rfl⟩

/-! ## Calls -/

theorem exec_answer (ask : Ask) (s : Store) (r : σ) :
    (answer ask : Act (StateT Store m) Unit).exec (s, r) =
      ((s.failing.lookup ask).elim (.ok ()) (fun text => .error (.fault (.backend text))),
        { s with asked := s.asked ++ [ask] }, r) := by
  simp only [answer, Act.exec_bind, Act.exec_modify, Act.exec_get]
  cases s.failing.lookup ask <;> simp

theorem exec_currencies (s : Store) (r : σ) :
    (backend (m := m)).currencies.exec (s, r) =
      ((s.failing.lookup .currencies).elim (.ok s.currencies) (fun text => .error (.fault (.backend text))),
        { s with asked := s.asked ++ [.currencies] }, r) := by
  simp only [backend, Act.exec_bind, exec_answer]
  cases s.failing.lookup .currencies <;> simp

theorem exec_history (priceId : String) (s : Store) (r : σ) :
    ((backend (m := m)).history priceId).exec (s, r) =
      ((s.failing.lookup .history).elim (.ok (s.historyOf priceId)) (fun text => .error (.fault (.backend text))),
        { s with asked := s.asked ++ [.history] }, r) := by
  simp only [backend, Act.exec_bind, exec_answer]
  cases s.failing.lookup .history <;> simp [historyOf]

theorem exec_append (priceId : String) (new : NewVersion) (s : Store) (r : σ) :
    ((backend (m := m)).append priceId new).exec (s, r) =
      let s' := { s with orders := s.orders ++ [new], asked := s.asked ++ [.append] }
      match s.failing.lookup .append with
      | none => (.ok (s.versionOf priceId new), s'.append priceId new, r)
      | some text => (.error (.fault (.backend text)), s', r) := by
  simp only [backend, Act.exec_bind, Act.exec_modify, exec_answer]
  cases s.failing.lookup .append <;> simp [versionOf]

/-- The store appends to its books, whatever it is told to fail at. -/
theorem appendOnly : AppendOnly (backend (m := m)) (fun (s : Store × σ) d => s.1.books = d) where
  currencies := by
    intro x d hx
    obtain ⟨s, r⟩ := x
    obtain rfl := hx
    unfold Act.Ensures
    rw [exec_currencies]
    cases s.failing.lookup .currencies <;> exact ⟨rfl, by simp [books]⟩
  history := by
    intro x d priceId hx
    obtain ⟨s, r⟩ := x
    obtain rfl := hx
    unfold Act.Ensures
    rw [exec_history]
    cases s.failing.lookup .history <;> exact ⟨rfl, by simp [books]⟩
  append := by
    intro x d priceId new hx
    obtain ⟨s, r⟩ := x
    obtain rfl := hx
    unfold Act.Ensures
    rw [exec_append]
    cases s.failing.lookup .append with
    | none => exact ⟨_, s.versionOf_fulfils priceId new, books_append _ _ _⟩
    | some text => rfl

/-! ## The ledger of a store -/

/-- What of a store decides on its answers: everything but what it was asked. -/
def data (s : Store) : Store := { s with asked := [] }

/-- An append puts the version that is due at the end, or fails if it is told to. -/
def ledger : Ledger Store where
  books := books
  append s priceId new :=
    let s' := { s with orders := s.orders ++ [new] }
    match s.failing.lookup .append with
    | none => (.ok (s.versionOf priceId new), s'.append priceId new)
    | some text => (.error (.fault (.backend text)), s')

theorem ledger_lawful : ledger.Lawful where
  currencies s priceId new := by
    cases h : s.failing.lookup .append <;> simp only [ledger, h] <;> rfl
  other s priceId new q hq := by
    cases h : s.failing.lookup .append <;> simp only [ledger, h]
    · rw [books_append]
      exact Books.append_history_other _ _ hq
    · rfl
  failed {s priceId new e} he := by
    cases h : s.failing.lookup .append <;> simp only [ledger, h] at he ⊢
    · cases he
    · rfl

/-- A store whose readings do not fail is steady. -/
theorem steady : Steady (backend (m := m)) ledger (fun (s : Store × σ) d =>
    s.1.data = d ∧ s.1.failing.lookup .currencies = none ∧ s.1.failing.lookup .history = none) where
  currencies := by
    intro x d hx
    obtain ⟨s, r⟩ := x
    obtain ⟨rfl, hc, hh⟩ := hx
    unfold Act.Ensures
    rw [exec_currencies, hc]
    exact ⟨rfl, rfl, hc, hh⟩
  history := by
    intro x d priceId hx
    obtain ⟨s, r⟩ := x
    obtain ⟨rfl, hc, hh⟩ := hx
    unfold Act.Ensures
    rw [exec_history, hh]
    exact ⟨rfl, rfl, hc, hh⟩
  append := by
    intro x d priceId new hx
    obtain ⟨s, r⟩ := x
    obtain ⟨rfl, hc, hh⟩ := hx
    unfold Act.Ensures
    rw [exec_append]
    have hfailing : s.data.failing = s.failing := rfl
    cases ha : s.failing.lookup .append with
    | none =>
      simp only [ledger, hfailing, ha]
      exact ⟨rfl, rfl, hc, hh⟩
    | some text =>
      simp only [ledger, hfailing, ha]
      exact ⟨trivial, rfl, hc, hh⟩

/-! ## A store to look at -/

/-- A store with one currency and one version of one price. -/
def sample : Store :=
  .ofData [⟨"USD", "US Dollar", some "$", some 2⟩]
    [("price_1", [⟨"amount_1", some "price_1", "USD", Decimal.unit 0, Instant.epoch, none⟩])]

/-- A clock beside a store, which goes on by one whenever it is looked at. -/
def ticking : StateT Store (StateM Ticks) Ticks := StateT.lift (modifyGet fun t => (t, t + 1))

end Tariff.Store
