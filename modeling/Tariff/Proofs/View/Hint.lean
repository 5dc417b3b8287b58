import Mathlib
import Tariff.View.Pages
import Tariff.Proofs.Proposal.NamedBound
/-
  Tariff.Proofs.View.Hint — the hint above a decision is the bound that the gate held.

  The gate asks the history for the latest start under the code of the entry that the proposal names, the
  page of the decision under the code as it was typed. A code matches the entry that it names, and codes
  that match select the same versions, so both find one start (`hint?_eq_of_resolve?`). A proposal is then
  accepted only for a start after the hint, and it is refused as overlapping just where its start, typed and
  not past, is not after the hint; that start is the one that the reason carries (`overlapsAt_iff_hint`).
  Nothing is asked of the codes: blanks, case and characters outside ASCII may stand anywhere.
-/

namespace Tariff

namespace View

variable {p : Proposal} {currencies : List Currency} {history : History} {now : Instant}

/-- The lines above a decision: the hint, if there is one. -/
def hintLines (color : Bool) (history : History) (p : Proposal) : List String :=
  (hint? history p).toList.map fun start => Tone.subtle.paint color (hintLine start)

/-- A decision that can be shown stands below the hint. -/
theorem outcomePage?_eq (color : Bool) (outcome : Except (List Rejection) Acceptance) (p : Proposal)
    (currencies : List Currency) (history : History) :
    outcomePage? color outcome p currencies history =
      (decisionLines? color currencies outcome).map fun lines =>
        Text.joinLines (hintLines color history p ++ lines) := by
  unfold outcomePage? hintLines
  cases decisionLines? color currencies outcome <;> rfl

/-- The hint is what the gate finds for the entry that the proposal names. -/
theorem hint?_eq_of_resolve? {c : Currency} (h : Currency.resolve? currencies p.currency = some c) :
    hint? history p = history.latestStart? c.code :=
  History.latestStart?_congr history (Currency.resolve?_eq_some_iff.1 h).codeKey_eq.symm

theorem lt_of_accepted {a : Acceptance} (h : p.validate currencies history now = .ok a) {latest : Instant}
    (hlatest : hint? history p = some latest) : latest < a.effectiveFrom := by
  obtain ⟨c, amount, start, hk, rfl⟩ := Proposal.validate_eq_ok_iff.1 h
  rw [hint?_eq_of_resolve? (Currency.resolve?_eq_some_iff.2 hk.named)] at hlatest
  obtain ⟨⟨v, hv, hin, rfl⟩, -⟩ := History.latestStart?_eq_some_iff.1 hlatest
  exact hk.after_all v hv hin

/-- A proposal overlaps just where its currency is known and its start, not past, is not after the hint, and it
is refused in the name of the hint. -/
theorem overlapsAt_iff_hint {latest : Instant} : p.OverlapsAt currencies history now latest ↔
    hint? history p = some latest ∧ (Currency.resolve? currencies p.currency).isSome = true ∧
      ∃ start, Instant.readTyped? p.effectiveFrom = some start ∧ now ≤ start ∧ start ≤ latest := by
  rw [Proposal.overlapsAt_iff]
  constructor
  · rintro ⟨start, c, hread, hnow, hc, hlatest, hle⟩
    refine ⟨?_, by rw [hc]; rfl, start, hread, hnow, hle⟩
    rw [hint?_eq_of_resolve? hc, hlatest]
  · rintro ⟨hhint, hsome, start, hread, hnow, hle⟩
    obtain ⟨c, hc⟩ := Option.isSome_iff_exists.1 hsome
    rw [hint?_eq_of_resolve? hc] at hhint
    exact ⟨start, c, hread, hnow, hc, hhint, hle⟩

/-- The page of a decision shows the hint, if there is one, above the decision. Where the typed code names an
entry, the hint is the latest start of the versions in the currency of that entry. So whatever is accepted
starts after the hint, and a proposal is refused as overlapping, in the name of the hint, exactly where its
code names an entry and its start is not past and not after the hint. -/
theorem hint_is_the_bound (color : Bool) (p : Proposal) (currencies : List Currency) (history : History)
    (now : Instant) :
    (outcomePage? color (p.validate currencies history now) p currencies history =
        (decisionLines? color currencies (p.validate currencies history now)).map fun lines =>
          Text.joinLines (hintLines color history p ++ lines)) ∧
      (∀ c, Currency.resolve? currencies p.currency = some c →
        hint? history p = history.latestStart? c.code) ∧
      (∀ a, p.validate currencies history now = .ok a →
        hint? history p = none ∨ ∃ latest, hint? history p = some latest ∧ latest < a.effectiveFrom) ∧
      ∀ latest, (∃ rs, p.validate currencies history now = .error rs ∧ .effectiveFromOverlaps latest ∈ rs) ↔
        hint? history p = some latest ∧ (Currency.resolve? currencies p.currency).isSome = true ∧
          ∃ start, Instant.readTyped? p.effectiveFrom = some start ∧ now ≤ start ∧ start ≤ latest := by
  refine ⟨outcomePage?_eq color _ p currencies history, fun c hc => hint?_eq_of_resolve? hc, fun a ha => ?_,
    fun latest => overlapsAt_iff_hint⟩
  cases hhint : hint? history p with
  | none => exact .inl rfl
  | some latest => exact .inr ⟨latest, rfl, lt_of_accepted ha hhint⟩

/-- A padded code outside ASCII, spelled in three ways: the version in the currency is seen under each. It is
the hint, the proposal for its start is refused in its name, and the one for the day after is accepted. -/
theorem hint_is_the_bound_of_padded_code :
    let entries : List Currency := [⟨"ñud\t", "", none, some 2⟩]
    let history : History := [⟨"amount_1", none, "ñUD ", Decimal.unit 0, Instant.epoch, none⟩]
    let early : Proposal := ⟨" ñUd", "10", "1970-01-01"⟩
    let late : Proposal := ⟨" ñUd", "10", "1970-01-02"⟩
    hintLines false history early = ["Latest version starts on 1970-01-01T00:00:00Z."] ∧
      history.latestStart? "ñud\t" = some Instant.epoch ∧
      (∃ rs, early.validate entries history Instant.epoch = .error rs ∧
        .effectiveFromOverlaps Instant.epoch ∈ rs) ∧
      ∃ a, late.validate entries history Instant.epoch = .ok a ∧ Instant.epoch < a.effectiveFrom := by
  intro entries history early late
  obtain ⟨-, hnamed, -, hoverlaps⟩ := hint_is_the_bound false early entries history Instant.epoch
  obtain ⟨-, -, haccepted, -⟩ := hint_is_the_bound false late entries history Instant.epoch
  have hresolve : Currency.resolve? entries early.currency = some ⟨"ñud\t", "", none, some 2⟩ := by decide +kernel
  have hhint : hint? history early = some Instant.epoch := by decide +kernel
  have hlater : (late.validate entries history Instant.epoch).isOk = true := by decide +kernel
  refine ⟨by decide +kernel, (hnamed _ hresolve).symm.trans hhint, (hoverlaps Instant.epoch).2 ⟨hhint, ?_, ?_⟩, ?_⟩
  · rw [hresolve]
    rfl
  · exact ⟨Instant.epoch, by decide +kernel, le_rfl, le_rfl⟩
  · cases hv : late.validate entries history Instant.epoch with
    | error rs =>
      rw [hv] at hlater
      cases hlater
    | ok a =>
      obtain hnone | ⟨latest, hlatest, hlt⟩ := haccepted a hv
      · exact absurd (hnone.symm.trans hhint) (by simp)
      · cases hlatest.symm.trans hhint
        exact ⟨a, rfl, hlt⟩

end View

end Tariff
