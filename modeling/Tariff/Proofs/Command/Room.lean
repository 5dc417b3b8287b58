import Mathlib
import Tariff.Proofs.Command.Course
import Tariff.Proofs.Currency.Shown
import Tariff.Proofs.Proposal.Rules
/-
  Tariff.Proofs.Command.Room — which decisions can be shown.

  An amount is shown with all the places of its currency, and may have no room at them
  (`Decimal.HasRoom`). The gate does not ask for room. A decision is shown unless it accepts an
  amount that has no room at the places of its currency, and then the command halts before it says
  anything (`decision_is_shown_iff`); with 28 places that happens from 1000 on
  (`ten_thousand_at_28_places_is_not_shown`).
-/

namespace Tariff

/-! ## Decisions -/

namespace View

/-- A refusal is always shown, and an acceptance where its amount is. -/
theorem outcomePage?_isSome_iff (color : Bool) (outcome : Except (List Rejection) Acceptance) (p : Proposal)
    (currencies : List Currency) (history : History) :
    (outcomePage? color outcome p currencies history).isSome = true ↔
      ∀ a, outcome = .ok a → a.amount.HasRoom (Currency.placesOr (Currency.resolve? currencies a.currency)) := by
  cases outcome with
  | error rs => simp [outcomePage?, decisionLines?]
  | ok a =>
    simp only [Except.ok.injEq, forall_eq', ← Currency.showAmount?_isSome_iff]
    cases hshow : Currency.showAmount? a.amount (Currency.resolve? currencies a.currency) <;>
      simp [outcomePage?, decisionLines?, acceptedLine?, hshow]

end View

namespace Command

variable {m : Type → Type} [Monad m] {σ : Type} [Stateful m σ]

/-- A decision is shown unless it accepts an amount that has no room at the places of its currency,
which no currency of at most two places brings about. Where it is shown the command goes on with it,
and where it is not the command halts and has said nothing. -/
theorem decision_is_shown_iff (color : Bool) (p : Proposal) (currencies : List Currency) (history : History)
    (now : Instant) (pages : List String) (s : σ) :
    let outcome := p.validate currencies history now
    let Fits := ∀ a, outcome = .ok a →
      a.amount.HasRoom (Currency.placesOr (Currency.resolve? currencies a.currency))
    ((View.outcomePage? color outcome p currencies history).isSome = true ↔ Fits) ∧
      ((∀ c ∈ currencies, c.places ≤ 2) → Fits) ∧
      (Fits → ∃ page, View.outcomePage? color outcome p currencies history = some page ∧
        (decide (m := m) color p currencies history now).exec (pages, s) =
          (outcome.mapError (fun rs => .fault (.rejected rs.length)), pages ++ [page], s)) ∧
      (¬ Fits → (decide (m := m) color p currencies history now).exec (pages, s) = (.error .halt, pages, s)) := by
  intro outcome Fits
  have hshown : (View.outcomePage? color outcome p currencies history).isSome = true ↔ Fits :=
    View.outcomePage?_isSome_iff color outcome p currencies history
  refine ⟨hshown, fun hfew a _ => ?_, fun hfits => ?_, fun hfits => ?_⟩
  · exact a.amount.hasRoom_of_le_two (Currency.placesOr_resolve?_le hfew le_rfl a.currency)
  · obtain ⟨page, hpage⟩ := Option.isSome_iff_exists.1 (hshown.2 hfits)
    exact ⟨page, hpage, by rw [exec_decide, hpage]⟩
  · have hnone : View.outcomePage? color outcome p currencies history = none := by
      rw [← Option.not_isSome_iff_eq_none, hshown]
      exact hfits
    rw [exec_decide, hnone]

/-- Ten thousand is accepted of a currency with 28 places, and cannot be shown. -/
theorem ten_thousand_at_28_places_is_not_shown :
    let p : Proposal := ⟨"XTS", "10000", "2024-06-01"⟩
    let currencies : List Currency := [⟨"XTS", "", none, some 28⟩]
    let outcome := p.validate currencies [] Instant.epoch
    outcome.toOption.isSome = true ∧ View.outcomePage? false outcome p currencies [] = none := by
  decide +kernel

end Command

end Tariff
