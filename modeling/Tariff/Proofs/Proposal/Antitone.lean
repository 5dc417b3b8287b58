import Mathlib
import Tariff.Proofs.Proposal.Rules
/-
  Tariff.Proofs.Proposal.Antitone — more history and a later instant never help a proposal.

  A proposal that is accepted is accepted with less of the history, at any instant before, and when
  entries are added at the end of the reference data, and then it names the same version
  (`accepted_stays_accepted`). So whatever is appended to a history and however late it gets, a
  proposal that is refused stays refused.
-/

namespace Tariff

namespace Currency

/-- A code keeps its entry when entries are added behind. -/
theorem Named.append {currencies : List Currency} {typed : String} {c : Currency} (h : Named currencies typed c)
    (extra : List Currency) : Named (currencies ++ extra) typed c := by
  obtain ⟨hne, before, after, rfl, hc, hbefore⟩ := h
  exact ⟨hne, before, after ++ extra, by simp, hc, hbefore⟩

end Currency

namespace Proposal

variable {p : Proposal} {currencies : List Currency} {history more : History} {now later : Instant}
  {c : Currency} {amount : Decimal} {start : Instant}

/-- Rules that are kept are kept with less history, earlier, and with more entries. -/
theorem Keeps.antitone (hk : p.Keeps currencies more later c amount start) (hsub : history ⊆ more)
    (hnow : now ≤ later) (extra : List Currency) :
    p.Keeps (currencies ++ extra) history now c amount start where
  named := hk.named.append extra
  amount_typed := hk.amount_typed
  positive := hk.positive
  precise := hk.precise
  start_typed := hk.start_typed
  not_past := hnow.trans hk.not_past
  after_all v hv hin := hk.after_all v (hsub hv) hin

/-- What is scheduled stays scheduled at an instant before. -/
theorem scheduled_acceptanceOf_earlier (hnow : now ≤ later)
    (h : (acceptanceOf c amount start later).scheduled = true) :
    (acceptanceOf c amount start now).scheduled = true := by
  have hlater : later < start := of_decide_eq_true h
  exact decide_eq_true (hnow.trans_lt hlater)

/-- A proposal that is accepted is accepted, as the same version, with less history, at an instant
before, and with entries added to the reference data; one that is refused is refused with more
history, later, and without these entries. -/
theorem accepted_stays_accepted (p : Proposal) (currencies extra : List Currency) {history more : History}
    {now later : Instant} (hsub : history ⊆ more) (hnow : now ≤ later) :
    (∀ a, p.validate currencies more later = .ok a →
      ∃ a', p.validate (currencies ++ extra) history now = .ok a' ∧ a'.currency = a.currency ∧
        a'.amount = a.amount ∧ a'.effectiveFrom = a.effectiveFrom ∧
        (a.scheduled = true → a'.scheduled = true)) ∧
      ∀ rs, p.validate (currencies ++ extra) history now = .error rs →
        ∃ rs', p.validate currencies more later = .error rs' := by
  have haccepted : ∀ a, p.validate currencies more later = .ok a →
      ∃ a', p.validate (currencies ++ extra) history now = .ok a' ∧ a'.currency = a.currency ∧
        a'.amount = a.amount ∧ a'.effectiveFrom = a.effectiveFrom ∧
        (a.scheduled = true → a'.scheduled = true) := by
    intro a ha
    obtain ⟨c, amount, start, hk, rfl⟩ := validate_eq_ok_iff.1 ha
    exact ⟨acceptanceOf c amount start now,
      validate_eq_ok_iff.2 ⟨c, amount, start, hk.antitone hsub hnow extra, rfl⟩, rfl, rfl, rfl,
      scheduled_acceptanceOf_earlier hnow⟩
  refine ⟨haccepted, fun rs hrs => ?_⟩
  cases hv : p.validate currencies more later with
  | error rs' => exact ⟨rs', rfl⟩
  | ok a =>
    obtain ⟨a', ha', -⟩ := haccepted a hv
    rw [hrs] at ha'
    cases ha'

/-- A price in dollars that may follow two versions may follow the first of them, on the same day. -/
theorem accepted_stays_accepted_in_dollars :
    let p : Proposal := ⟨"usd ", "10.50", "2024-06-01"⟩
    let dollars : List Currency := [⟨"USD", "US Dollar", some "$", some 2⟩]
    let yen : Currency := ⟨"JPY", "Yen", none, some 0⟩
    let first : Version := ⟨"amount_1", none, "USD", Decimal.unit 0, Instant.epoch, none⟩
    let second : Version := ⟨"amount_2", none, "JPY", Decimal.unit 0, Instant.epoch, none⟩
    [first] ⊆ [first, second] ∧ Instant.epoch ≤ Instant.epoch ∧
      ∃ a, p.validate dollars [first, second] Instant.epoch = .ok a ∧ a.scheduled = true ∧
        ∃ a', p.validate (dollars ++ [yen]) [first] Instant.epoch = .ok a' ∧ a'.currency = a.currency ∧
          a'.amount = a.amount ∧ a'.effectiveFrom = a.effectiveFrom ∧ a'.scheduled = true := by
  intro p dollars yen first second
  have hsub : [first] ⊆ [first, second] := by simp
  have hnow : Instant.epoch ≤ Instant.epoch := le_refl _
  have hall : (p.validate dollars [first, second] Instant.epoch).toOption.any (·.scheduled) = true := by
    decide +kernel
  cases hv : p.validate dollars [first, second] Instant.epoch with
  | error rs => simp [hv, Except.toOption] at hall
  | ok a =>
    have hscheduled : a.scheduled = true := by simpa [hv, Except.toOption] using hall
    obtain ⟨a', ha', hcurrency, hamount, hstart, hkept⟩ :=
      (accepted_stays_accepted p dollars [yen] hsub hnow).1 a hv
    exact ⟨hsub, hnow, a, rfl, hscheduled, a', ha', hcurrency, hamount, hstart, hkept hscheduled⟩

end Proposal

end Tariff
