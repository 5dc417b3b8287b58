import Mathlib
import Tariff.Proofs.Instant.Retyped
import Tariff.Proofs.Proposal.Rules
/-
  Tariff.Proofs.Proposal.NamedBound — the bound that a rejection names, and what is refused after it.

  A proposal that overlaps is refused in the name of the latest start of its currency, which the message
  shows without the fraction of the second. Another proposal in the currency overlaps as long as it does
  not start after the latest start itself (`OverlapsAt.retry_iff`). So one that starts after what is shown
  is still refused if it starts in that second and not after the latest start, and only then: what is
  shown is enough exactly when the latest start is a whole second (`named_bound_leaves_its_second`), and
  otherwise it is not (`named_bound_is_refused`).
-/

namespace Tariff

namespace Instant

/-! ## Seconds -/

theorem stamp_wholeSecond (t : Instant) : t.wholeSecond.stamp + t.nano = t.stamp := by
  simp [stamp, wholeSecond]

theorem wholeSecond_le (t : Instant) : t.wholeSecond ≤ t := by
  have h := t.stamp_wholeSecond
  show t.wholeSecond.stamp ≤ t.stamp
  omega

theorem wholeSecond_eq_self_iff {t : Instant} : t.wholeSecond = t ↔ t.nano = 0 := by
  have h := t.stamp_wholeSecond
  rw [← stamp_injective.eq_iff]
  omega

/-- What lies after the start of a second and not after an instant of it is in the same second. -/
theorem wholeSecond_eq_of_le {t u : Instant} (hlow : t.wholeSecond ≤ u) (hhigh : u ≤ t) :
    u.wholeSecond = t.wholeSecond := by
  have hlow : t.wholeSecond.stamp ≤ u.stamp := hlow
  have hhigh : u.stamp ≤ t.stamp := hhigh
  have ht := t.nano_lt
  have hu := u.nano_lt
  apply stamp_injective
  simp only [stamp, wholeSecond] at hlow hhigh ⊢
  omega

end Instant

namespace Proposal

variable {p q : Proposal} {currencies : List Currency} {history : History} {now latest start : Instant}

/-- The gate refuses the proposal for a version that starts at this instant, the latest of its currency. -/
def OverlapsAt (p : Proposal) (currencies : List Currency) (history : History) (now latest : Instant) : Prop :=
  ∃ rs, p.validate currencies history now = .error rs ∧ .effectiveFromOverlaps latest ∈ rs

theorem overlapsAt_iff_judgeStart : p.OverlapsAt currencies history now latest ↔
    judgeStart (Currency.resolve? currencies p.currency) history now p.effectiveFrom =
      .error (.effectiveFromOverlaps latest) := by
  constructor
  · rintro ⟨rs, hv, hmem⟩
    exact judgeStart_eq_error_iff.2 ⟨(mem_of_validate_eq_error hv _).1 hmem, rfl⟩
  · intro hstart
    rcases validate_cases p currencies history now with ⟨c, amount, t, -, -, ht, -⟩ | ⟨hv, -⟩
    · rw [hstart] at ht
      cases ht
    · exact ⟨_, hv, List.mem_append_right _ (mem_reason.2 hstart)⟩

theorem overlapsAt_iff : p.OverlapsAt currencies history now latest ↔
    ∃ start c, Instant.readTyped? p.effectiveFrom = some start ∧ now ≤ start ∧
      Currency.resolve? currencies p.currency = some c ∧ history.latestStart? c.code = some latest ∧
      start ≤ latest := by
  rw [overlapsAt_iff_judgeStart]
  constructor
  · intro h
    rcases judgeStart_cases (Currency.resolve? currencies p.currency) history now p.effectiveFrom with
      ⟨-, hj⟩ | ⟨start, hread, ⟨-, hj⟩ | ⟨hnow, c, t, hc, hlatest, hle, hj⟩ | ⟨-, -, hj⟩⟩
    · simp [hj] at h
    · simp [hj] at h
    · obtain rfl : t = latest := by simpa [hj] using h
      exact ⟨start, c, hread, hnow, hc, hlatest, hle⟩
    · simp [hj] at h
  · rintro ⟨start, c, hread, hnow, hc, hlatest, hle⟩
    simp [judgeStart, hread, not_lt.2 hnow, hc, hlatest, hle]

/-- The first proposal is in the currency of the second, its amount is valid, and it starts at this
instant, which is not past. -/
structure RetryOf (q p : Proposal) (currencies : List Currency) (now start : Instant) : Prop where
  currency : Text.sameCode q.currency p.currency = true
  amount : ∃ a, judgeAmount (Currency.resolve? currencies q.currency) q.amount = .ok a
  start_typed : Instant.readTyped? q.effectiveFrom = some start
  not_past : now ≤ start

/-- It is refused as long as it does not start after the latest version, which its message names. -/
theorem OverlapsAt.retry_iff (h : p.OverlapsAt currencies history now latest) (hq : q.RetryOf p currencies now start) :
    (∃ other, q.OverlapsAt currencies history now other) ↔ start ≤ latest := by
  obtain ⟨-, c, -, -, hc, hlatest, -⟩ := overlapsAt_iff.1 h
  have hkey : Text.codeKey q.currency = Text.codeKey p.currency := beq_iff_eq.1 hq.currency
  constructor
  · rintro ⟨other, hother⟩
    obtain ⟨t, d, ht, -, hd, hlatest', hle⟩ := overlapsAt_iff.1 hother
    rw [Currency.resolve?_congr currencies hkey, hc] at hd
    cases hd
    rw [hlatest] at hlatest'
    cases hlatest'
    rw [hq.start_typed] at ht
    cases ht
    exact hle
  · intro hle
    have hd := (Currency.resolve?_congr currencies hkey).trans hc
    exact ⟨latest, overlapsAt_iff.2 ⟨start, c, hq.start_typed, hq.not_past, hd, hlatest, hle⟩⟩

/-- One is an amount of every currency. -/
theorem judgeAmount_one (currency : Option Currency) : judgeAmount currency "1" = .ok (Decimal.unit 0) := by
  have hvalue : (Decimal.unit 0).value = 1 := by rw [Decimal.value_unit (Nat.zero_le 28), pow_zero, div_one]
  refine judgeAmount_eq_ok_iff.2 ⟨by decide +kernel, by rw [hvalue]; norm_num, fun c _ => ⟨10 ^ c.places, ?_⟩⟩
  rw [hvalue, one_mul]
  norm_cast

/-- A proposal that starts at the latest start itself. -/
theorem OverlapsAt.exists_retry (h : p.OverlapsAt currencies history now latest) :
    ∃ q : Proposal, q.RetryOf p currencies now latest := by
  obtain ⟨start, c, -, hnow, hc, -, hle⟩ := overlapsAt_iff.1 h
  obtain ⟨typed, htyped⟩ := latest.exists_typed
  exact ⟨⟨p.currency, "1", typed⟩, by simp [Text.sameCode], ⟨_, judgeAmount_one _⟩, htyped, hnow.trans hle⟩

theorem message_overlaps (latest : Instant) : (Rejection.effectiveFromOverlaps latest).message =
    "Effective from must be after " ++ latest.wholeSecond.text ++ " to avoid overlap." := by
  rw [← Instant.shown_eq_text_wholeSecond]
  rfl

/-- The message of an overlap names the second of the latest start. A proposal that starts after what is
named overlaps just when it starts within that second and not after the latest start, so what is named is
enough exactly if the latest start has no fraction of a second. -/
theorem named_bound_leaves_its_second (h : p.OverlapsAt currencies history now latest) :
    (Rejection.effectiveFromOverlaps latest).message =
        "Effective from must be after " ++ latest.wholeSecond.text ++ " to avoid overlap." ∧
      (∀ (q : Proposal) start, q.RetryOf p currencies now start → latest.wholeSecond < start →
        ((∃ other, q.OverlapsAt currencies history now other) ↔
          start.wholeSecond = latest.wholeSecond ∧ start ≤ latest)) ∧
      ((∀ (q : Proposal) start, q.RetryOf p currencies now start → latest.wholeSecond < start →
        ¬ ∃ other, q.OverlapsAt currencies history now other) ↔ latest.nano = 0) := by
  refine ⟨message_overlaps latest, fun q start hq hlt => ?_, fun hfree => ?_, fun hzero q start hq hlt => ?_⟩
  · rw [h.retry_iff hq]
    exact ⟨fun hle => ⟨Instant.wholeSecond_eq_of_le hlt.le hle, hle⟩, fun hx => hx.2⟩
  · -- the latest start itself is refused, and it lies after what is named if it has a fraction
    obtain ⟨q, hq⟩ := h.exists_retry
    rw [← Instant.wholeSecond_eq_self_iff]
    by_contra hne
    exact hfree q latest hq (lt_of_le_of_ne latest.wholeSecond_le hne) ((h.retry_iff hq).2 le_rfl)
  · rw [h.retry_iff hq, not_le]
    rwa [Instant.wholeSecond_eq_self_iff.2 hzero] at hlt

/-- In dollars, with a version that starts half a second after the start of day 0: what is named is the
start of that day, a proposal for a quarter of a second after it is refused, and one for the next second is
not. -/
theorem named_bound_leaves_half_a_second :
    let half : Instant := ⟨0, 0, 0, 500000000, by decide, by decide, by decide, by decide, by decide⟩
    let dollars : List Currency := [⟨"USD", "US Dollar", some "$", some 2⟩]
    let history : History := [⟨"amount_1", none, "USD", Decimal.unit 0, half, none⟩]
    let refused (p : Proposal) : Prop := ∃ latest, p.OverlapsAt dollars history Instant.epoch latest
    (⟨"USD", "10", "1970-01-01"⟩ : Proposal).OverlapsAt dollars history Instant.epoch half ∧
      (Rejection.effectiveFromOverlaps half).message =
        "Effective from must be after " ++ Instant.epoch.text ++ " to avoid overlap." ∧
      refused ⟨" usd", "1", "1970-01-01T00:00:00.25"⟩ ∧ ¬ refused ⟨" usd", "1", "1970-01-01T00:00:01"⟩ := by
  intro half dollars history refused
  have hfirst : (⟨"USD", "10", "1970-01-01"⟩ : Proposal).OverlapsAt dollars history Instant.epoch half :=
    overlapsAt_iff.2 ⟨Instant.epoch, ⟨"USD", "US Dollar", some "$", some 2⟩, by decide +kernel, le_rfl,
      by decide +kernel, by decide +kernel, by decide +kernel⟩
  obtain ⟨hmessage, hlater, -⟩ := named_bound_leaves_its_second hfirst
  let quarter : Instant := ⟨0, 0, 0, 250000000, by decide, by decide, by decide, by decide, by decide⟩
  let next : Instant := ⟨0, 0, 1, 0, by decide, by decide, by decide, by decide, by decide⟩
  have hquarter := hlater ⟨" usd", "1", "1970-01-01T00:00:00.25"⟩ quarter
    ⟨by decide +kernel, ⟨_, judgeAmount_one _⟩, by decide +kernel, by decide +kernel⟩ (by decide +kernel)
  have hnext := hlater ⟨" usd", "1", "1970-01-01T00:00:01"⟩ next
    ⟨by decide +kernel, ⟨_, judgeAmount_one _⟩, by decide +kernel, by decide +kernel⟩ (by decide +kernel)
  exact ⟨hfirst, hmessage, hquarter.2 (by decide +kernel), fun h => absurd (hnext.1 h) (by decide +kernel)⟩

/-- What is named is not enough: a proposal that starts after it is refused in its name. -/
theorem named_bound_is_refused :
    let latest : Instant := ⟨19875, 0, 0, 500000000, by decide, by decide, by decide, by decide, by decide⟩
    let now : Instant := ⟨19723, 0, 0, 0, by decide, by decide, by decide, by decide, by decide⟩
    let p : Proposal := ⟨"USD", "10", "2024-06-01T00:00:00.25Z"⟩
    let dollars : List Currency := [⟨"USD", "", none, some 2⟩]
    let history : History := [⟨"", none, "USD", Decimal.unit 0, latest, none⟩]
    ∃ bound start, (Rejection.effectiveFromOverlaps latest).message =
        "Effective from must be after 2024-06-01T00:00:00Z to avoid overlap." ∧
      Instant.readTyped? "2024-06-01T00:00:00Z" = some bound ∧ p.RetryOf p dollars now start ∧ bound < start ∧
      p.OverlapsAt dollars history now latest := by
  intro latest now p dollars history
  let bound : Instant := ⟨19875, 0, 0, 0, by decide, by decide, by decide, by decide, by decide⟩
  let start : Instant := ⟨19875, 0, 0, 250000000, by decide, by decide, by decide, by decide, by decide⟩
  have htyped : Instant.readTyped? p.effectiveFrom = some start := by decide +kernel
  have hnow : now ≤ start := by decide +kernel
  have hamount : ∃ a, judgeAmount (Currency.resolve? dollars p.currency) p.amount = .ok a :=
    ⟨⟨false, 10, 0, by decide, by decide⟩, by decide +kernel⟩
  refine ⟨bound, start, by decide +kernel, by decide +kernel, ⟨by decide +kernel, hamount, htyped, hnow⟩,
    by decide +kernel, overlapsAt_iff.2 ⟨start, ⟨"USD", "", none, some 2⟩, htyped, hnow, by decide +kernel,
      by decide +kernel, by decide +kernel⟩⟩

end Proposal

end Tariff
