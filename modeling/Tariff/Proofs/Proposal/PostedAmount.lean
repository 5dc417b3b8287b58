import Mathlib
import Tariff.Proofs.Binary64.OfDecimal
import Tariff.Proofs.Json.Number
import Tariff.Proofs.Proposal.Rules
import Tariff.Version.Codec
/-
  Tariff.Proofs.Proposal.PostedAmount — what is accepted, and the number that is posted.

  The body of a request carries the amount as a JSON number. It is the shortest one that stands for
  the floating-point number of the amount, and so it need not be the amount: it is within one part in
  2^48 of it, and it is the amount exactly if that is short (`Decimal.IsShort`): at most 15 digits and
  22 places, or a whole number that is small or round (`posted_amount_is_near`). One digit more is
  enough for another number to be posted (`posted_amount_is_another`).
-/

namespace Tariff

open Binary64 (Nearest Within decimal)

/-! ## The body -/

/-- The body with this number for the amount. -/
def NewVersion.bodyWith (v : NewVersion) (number : String) : String :=
  "\x7b\"currency\":" ++ Json.stringText v.currency ++ ",\"amount\":" ++ number ++ ",\"effective_from\":" ++
    Json.stringText v.effectiveFrom.text ++ "\x7d"

theorem NewVersion.body_eq (v : NewVersion) : v.body = v.bodyWith (Binary64.ofAmount v.amount).compact := by
  have hmembers (x y z : String) : String.intercalate "," [x, y, z] = x ++ "," ++ y ++ "," ++ z := rfl
  have hcurrency : "\x7b\"currency\":" = "\x7b" ++ (Json.stringText "currency" ++ ":") := by decide
  have hamount : ",\"amount\":" = "," ++ (Json.stringText "amount" ++ ":") := by decide
  have hstart : ",\"effective_from\":" = "," ++ (Json.stringText "effective_from" ++ ":") := by decide
  unfold bodyWith
  simp only [body, toJson, Json.text, Json.memberTexts, Json.numberText, hmembers, hcurrency, hamount, hstart,
    String.append_assoc]

/-! ## Short amounts -/

namespace Decimal

/-- Amounts that are posted as they are. -/
inductive IsShort (d : Decimal) : Prop
  /-- Few digits and places. -/
  | digits : d.mantissa < 10 ^ 15 → d.scale ≤ 22 → IsShort d
  /-- A small whole number. -/
  | small {n : ℕ} : d.value = n → n < 2 ^ 53 → IsShort d
  /-- A whole number of few digits before its zeros. -/
  | round {k j : ℕ} : d.value = k * 10 ^ j → k < 10 ^ 15 → IsShort d

variable {d : Decimal}

theorem positive_parts (h : 0 < d.value) :
    d.negative = false ∧ 0 < d.mantissa ∧ d.value = d.mantissa / 10 ^ d.scale := by
  have hpos := (isPositive_iff d).2 h
  simp only [isPositive, Bool.and_eq_true, Bool.not_eq_true', bne_iff_ne] at hpos
  exact ⟨hpos.1, Nat.pos_of_ne_zero hpos.2, by simp [value, hpos.1]⟩

theorem ofAmount_eq (h : 0 < d.value) : Binary64.ofAmount d = Binary64.ofMantissa d.mantissa d.scale := by
  rw [Binary64.ofAmount, (positive_parts h).1]
  rfl

theorem mantissa_le (d : Decimal) : d.mantissa ≤ 2 ^ 96 := d.mantissa_lt.le

/-- A whole value has no fraction. -/
theorem mod_eq_zero_of_whole (h : 0 < d.value) {n : ℕ} (hn : d.value = n) : d.mantissa % tenPow d.scale = 0 := by
  rw [(positive_parts h).2.2, div_eq_iff (by positivity)] at hn
  have hmul : d.mantissa = n * tenPow d.scale := by
    rw [show tenPow d.scale = 10 ^ d.scale from rfl]
    exact_mod_cast hn
  rw [hmul, Nat.mul_mod_left]

end Decimal

/-! ## The number -/

namespace Binary64

variable {m : Nat} {e : Int} {d : Decimal}

/-- The digits of the number that stands for a short amount are the amount. -/
theorem shortest_of_isShort (h : 0 < d.value) (hm : Normal m e) (hspan : InSpan m e d.value) (hshort : d.IsShort) :
    decimal (shortest m e).1 (shortest m e).2 = d.value := by
  cases hshort with
  | digits hmantissa hscale =>
    have hdecimal : d.value = decimal d.mantissa (-d.scale) := by
      rw [(Decimal.positive_parts h).2.2, decimal, zpow_neg, zpow_natCast, div_eq_mul_inv]
    rw [hdecimal] at hspan ⊢
    exact shortest_eq_of_digits hm hmantissa hspan
  | @small n hvalue hlt =>
    have hscaled : (n : ℚ) = scaled n 0 := by simp [scaled]
    rw [hvalue] at hspan ⊢
    rw [hscaled] at hspan
    exact shortest_eq_of_whole hm hlt ((hspan.eq_of_short hm hlt).trans hscaled.symm)
  | @round k j hvalue hlt =>
    have hdecimal : d.value = decimal k j := by rw [hvalue, decimal, zpow_natCast]
    rw [hdecimal] at hspan ⊢
    exact shortest_eq_of_digits hm hlt hspan

/-- A short amount has no fraction or few digits, so its number is the nearest. -/
theorem nearest_of_isShort (h : 0 < d.value) (hshort : d.IsShort) : Nearest (ofAmount d) d.value := by
  have hcases : d.mantissa % tenPow d.scale = 0 ∨ d.scale ≤ 22 ∧ d.mantissa < 10 ^ 15 := by
    cases hshort with
    | digits hmantissa hscale => exact .inr ⟨hscale, hmantissa⟩
    | @small n hvalue hlt => exact .inl (Decimal.mod_eq_zero_of_whole h hvalue)
    | @round k j hvalue hlt =>
      exact .inl (Decimal.mod_eq_zero_of_whole (n := k * 10 ^ j) h (by rw [hvalue]; push_cast; rfl))
  obtain ⟨-, hpos, hvalue⟩ := Decimal.positive_parts h
  rw [Decimal.ofAmount_eq h, hvalue]
  exact ofMantissa_nearest hpos d.mantissa_le d.scale_le hcases

/-- What is written for an amount is a number near it, and the amount if that is short. -/
theorem exactNumber?_ofAmount (h : 0 < d.value) :
    ∃ x, JsonDraft.exactNumber? (ofAmount d).compact.toList = some x ∧ |x - d.value| ≤ d.value / 2 ^ 48 ∧
      (d.IsShort → x = d.value) := by
  obtain ⟨-, hpos, hvalue⟩ := Decimal.positive_parts h
  obtain ⟨t, ⟨m, e, heq, hm, hspan⟩, hwithin⟩ := ofMantissa_within hpos d.mantissa_le d.scale_le
  rw [← Decimal.ofAmount_eq h] at heq
  rw [← hvalue] at hwithin
  refine ⟨_, by rw [heq]; exact exactNumber?_compact hm, ?_, fun hshort => ?_⟩
  · -- the number is near what it stands for, and its digits are near the number
    have hnumber := Within.trans (by norm_num) (by norm_num) h.le hwithin (hspan.within hm)
    have hdigits := Within.trans (by norm_num) (by norm_num) h.le hnumber ((shortest_inSpan hm).within_number hm)
    refine hdigits.dist_le.trans ?_
    rw [part]
    push_cast
    linarith
  · obtain ⟨m', e', heq', -, hspan'⟩ := nearest_of_isShort h hshort
    rw [heq] at heq'
    cases heq'
    exact shortest_of_isShort h hm hspan' hshort

end Binary64

namespace Proposal

/-- The body of the request for an accepted proposal has a JSON number for the amount. Read exactly it
is within one part in 2^48 of the amount that was accepted, and it is that amount if that is short. -/
theorem posted_amount_is_near (p : Proposal) (currencies : List Currency) (history : History) (now : Instant)
    (a : Acceptance) (h : p.validate currencies history now = .ok a) :
    ∃ number x, a.request.body = a.request.bodyWith number ∧ JsonDraft.exactNumber? number.toList = some x ∧
      |x - a.amount.value| ≤ a.amount.value / 2 ^ 48 ∧ (a.amount.IsShort → x = a.amount.value) := by
  obtain ⟨c, amount, start, hk, rfl⟩ := validate_eq_ok_iff.1 h
  obtain ⟨x, hread, hnear, hshort⟩ := Binary64.exactNumber?_ofAmount hk.positive
  exact ⟨_, x, NewVersion.body_eq _, hread, hnear, hshort⟩

/-- Fifteen digits are posted as they are. -/
theorem posted_amount_of_fifteen_digits :
    let p : Proposal := ⟨"usd", "1234567890123.45", "2024-06-01"⟩
    let currencies : List Currency := [⟨"USD", "US Dollar", some "$", some 2⟩]
    ∃ a number, p.validate currencies [] Instant.epoch = .ok a ∧ a.request.body = a.request.bodyWith number ∧
      JsonDraft.exactNumber? number.toList = some a.amount.value := by
  intro p currencies
  have haccepted : (p.validate currencies [] Instant.epoch).toOption.map (·.amount) =
      some ⟨false, 123456789012345, 2, by decide, by decide⟩ := by decide +kernel
  cases hv : p.validate currencies [] Instant.epoch with
  | error rs => simp [hv, Except.toOption] at haccepted
  | ok a =>
    simp only [hv, Except.toOption, Option.map_some, Option.some.injEq] at haccepted
    obtain ⟨number, x, hbody, hread, -, hexact⟩ := posted_amount_is_near p currencies [] Instant.epoch a hv
    have hshort : a.amount.IsShort := .digits (by rw [haccepted]; norm_num) (by rw [haccepted]; norm_num)
    exact ⟨a, number, rfl, hbody, hexact hshort ▸ hread⟩

/-- Of sixteen digits the last one is posted as another. -/
theorem posted_amount_is_another :
    let p : Proposal := ⟨"usd", "99999999999999.99", "2024-06-01"⟩
    let currencies : List Currency := [⟨"USD", "US Dollar", some "$", some 2⟩]
    ∃ a x, p.validate currencies [] Instant.epoch = .ok a ∧
      a.request.body = a.request.bodyWith "99999999999999.98" ∧
      JsonDraft.exactNumber? "99999999999999.98".toList = some x ∧ x ≠ a.amount.value := by
  intro p currencies
  have haccepted : (p.validate currencies [] Instant.epoch).toOption.map (·.amount) =
      some ⟨false, 9999999999999999, 2, by decide, by decide⟩ := by decide +kernel
  have hposted : (Binary64.ofMantissa 9999999999999999 2).compact = "99999999999999.98" := by decide +kernel
  have hdigits : digitsAfter 0 "9999999999999998".toList = 9999999999999998 := by decide +kernel
  cases hv : p.validate currencies [] Instant.epoch with
  | error rs => simp [hv, Except.toOption] at haccepted
  | ok a =>
    simp only [hv, Except.toOption, Option.map_some, Option.some.injEq] at haccepted
    have hread : JsonDraft.exactMagnitude? "99999999999999.98".toList = some (decimal 9999999999999998 (-2)) := by
      have hwhole : JsonDraft.wholePart? "99999999999999.98".toList = some ("99999999999999".toList, ".98".toList) := rfl
      have hfraction : JsonDraft.fractionPart? ".98".toList = some ("98".toList, []) := rfl
      have hnone : JsonDraft.exponentPart? [] = some (none, []) := rfl
      rw [← hdigits]
      exact JsonDraft.exactMagnitude?_of_parts hwhole hfraction hnone
    refine ⟨a, _, rfl, ?_, JsonDraft.exactNumber?_of_magnitude hread, ?_⟩
    · rw [NewVersion.body_eq]
      have hamount : Binary64.ofAmount a.request.amount = Binary64.ofMantissa 9999999999999999 2 := by
        rw [show a.request.amount = a.amount from rfl, haccepted]
        rfl
      rw [hamount, hposted]
    · rw [haccepted]
      norm_num [decimal, Decimal.value]

end Proposal

end Tariff
