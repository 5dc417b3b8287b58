import Mathlib
import Tariff.Json.Draft
import Tariff.Proofs.Binary64.Whole
import Tariff.Proofs.Json.Number
import Tariff.Proofs.Proposal.WholeAmount
/-
  Tariff.Proofs.Json.Whole — what the reader makes of an integer in JSON.

  An integer of 64 bits is kept; a zero with a sign is not, nor is a negative integer below 63 bits: they become
  floating-point numbers. Of any other integer the digits that fit 64 bits are scaled by a power of ten, with three
  roundings, so the floating-point number stands for the integer (`numberOf?_whole`).
-/

namespace Tariff

open Binary64 (minus Stands Normal scaled Within)

namespace JsonDraft

/-! ## Digits that fit -/

/-- Digits are taken while they fit; with the first that is left they would not. -/
theorem significand_spec (bound m : Nat) (ds : List Char) : ∃ taken rest, ds = taken ++ rest ∧
    significand bound m ds = (digitsAfter m taken, rest) ∧
      (m < bound → digitsAfter m taken < bound) ∧
      ∀ d ∈ rest.head?, bound ≤ digitsAfter m taken * 10 + (d.toNat - 48) := by
  induction ds generalizing m with
  | nil => exact ⟨[], [], rfl, rfl, id, by simp⟩
  | cons d ds ih =>
    by_cases hfit : m * 10 + (d.toNat - 48) < bound
    · obtain ⟨taken, rest, rfl, hread, hlt, hnext⟩ := ih (m * 10 + (d.toNat - 48))
      refine ⟨d :: taken, rest, rfl, ?_, fun _ => ?_, ?_⟩
      · rw [significand, if_pos hfit, hread, digitsAfter_cons]
      · rw [digitsAfter_cons]
        exact hlt hfit
      · rw [digitsAfter_cons]
        exact hnext
    · refine ⟨[], d :: ds, rfl, ?_, id, ?_⟩
      · rw [significand, if_neg hfit]
        rfl
      · intro c hc
        obtain rfl : d = c := by simpa using hc
        exact not_lt.1 hfit

/-! ## Integers -/

/-- The digits that were left out say less than a part of the number. -/
theorem within_taken {m j k : Nat} (hm : 2 ^ 55 ≤ m) (hlow : m * 10 ^ j ≤ k) (hhigh : k < (m + 1) * 10 ^ j) :
    Within 1 k ((m : ℚ) * 10 ^ j) := by
  have hmq : (2 : ℚ) ^ 55 ≤ m := by exact_mod_cast hm
  have hlowq : (m : ℚ) * 10 ^ j ≤ k := by exact_mod_cast hlow
  have hhighq : (k : ℚ) < (m + 1) * 10 ^ j := by exact_mod_cast hhigh
  have hten : (0 : ℚ) < 10 ^ j := by positivity
  have hpart : (10 : ℚ) ^ j ≤ Binary64.part * k := by
    rw [Binary64.part, div_mul_eq_mul_div, one_mul, le_div_iff₀ (by positivity)]
    calc (10 : ℚ) ^ j * 2 ^ 55 ≤ 10 ^ j * m := mul_le_mul_of_nonneg_left hmq hten.le
      _ = m * 10 ^ j := mul_comm _ _
      _ ≤ k := hlowq
  constructor
  · push_cast
    linarith
  · push_cast
    linarith

/-- An integer that is too long for 64 bits is near what its digits give when they are cut and scaled. -/
theorem stands_of_scaled {taken rest : List Char} {z : Binary64} (hds : ∀ c ∈ taken ++ rest, c.isDigit = true)
    (hne : rest ≠ []) (hlt : digitsAfter 0 taken < wordBound)
    (hnext : ∀ d ∈ rest.head?, wordBound ≤ digitsAfter 0 taken * 10 + (d.toNat - 48))
    (h : Binary64.ofScaled? (digitsAfter 0 taken) rest.length = some z) :
    z.Stands false (digitsAfter 0 (taken ++ rest)) ∧ wordBound ≤ digitsAfter 0 (taken ++ rest) := by
  obtain ⟨d, more, rfl⟩ := List.exists_cons_of_ne_nil hne
  have hword : wordBound = 2 ^ 64 := by norm_num [wordBound, twoPow]
  have hlarge := hnext d rfl
  have hnine := digit_le (hds d (List.mem_append_right _ List.mem_cons_self))
  rw [hword] at hlt hlarge ⊢
  -- what is taken is short of the bound by a factor of ten at most
  have htaken : 2 ^ 55 ≤ digitsAfter 0 taken := by omega
  have hsplit : digitsAfter 0 (taken ++ d :: more) =
      digitsAfter 0 taken * 10 ^ (d :: more).length + digitsAfter 0 (d :: more) := by
    rw [digitsAfter_append, digitsAfter_eq]
  have hrest : digitsAfter 0 (d :: more) < 10 ^ (d :: more).length :=
    digitsAfter_lt fun c hc => hds c (List.mem_append_right _ hc)
  obtain ⟨m, e, rfl, hm, hnear⟩ := Binary64.ofScaled?_within (by omega) (by omega) h
  constructor
  · refine ⟨m, e, rfl, hm, ?_⟩
    have hcut := within_taken htaken (hsplit ▸ Nat.le_add_right _ _) (by rw [hsplit, add_one_mul]; omega)
    exact (hcut.trans (by norm_num) (by norm_num) (by positivity) hnear).mono (by norm_num) (by positivity)
  · rw [digitsAfter_append, digitsAfter_cons]
    exact hlarge.trans (le_digitsAfter _ more)

/-- What an integer is read as, if it is not too large for a number: itself, if it has 64 bits; a zero with a sign;
or a floating-point number that stands for it. -/
theorem numberOf?_whole {negative : Bool} {ds : List Char} {x : JsonNumber} (hds : ∀ c ∈ ds, c.isDigit = true)
    (h : numberOf? negative ds [] none = some x) :
    (x = .integer (signed negative (digitsAfter 0 ds)) ∧ -(2 ^ 63) ≤ signed negative (digitsAfter 0 ds) ∧
        signed negative (digitsAfter 0 ds) < 2 ^ 64) ∨
      (digitsAfter 0 ds = 0 ∧ x = .float (.finite true 0 0)) ∨
      ∃ z, x = .float z ∧ z.Stands negative (digitsAfter 0 ds) ∧ 2 ^ 63 < digitsAfter 0 ds := by
  have hword : wordBound = 2 ^ 64 := by norm_num [wordBound, twoPow]
  have h63 : twoPow 63 = 2 ^ 63 := rfl
  obtain ⟨taken, rest, rfl, hread, hlt, hnext⟩ := significand_spec wordBound 0 ds
  have hlt := hlt (by rw [hword]; norm_num)
  simp only [numberOf?, hread, List.isEmpty_nil, Option.isNone_none, Bool.and_self, Bool.true_and] at h
  cases rest with
  | nil =>
    rw [List.append_nil] at hds ⊢
    rw [hword] at hlt
    simp only [List.isEmpty_nil, if_true, h63] at h
    cases negative with
    | false =>
      simp only [Bool.not_false, if_true, Option.some.injEq] at h
      subst h
      refine .inl ⟨rfl, ?_, ?_⟩
      · exact le_trans (by norm_num) (Int.natCast_nonneg _)
      · show ((digitsAfter 0 taken : ℕ) : ℤ) < 2 ^ 64
        exact_mod_cast hlt
    | true =>
      simp only [Bool.not_true, Bool.false_eq_true, if_false, if_true] at h
      by_cases hzero : digitsAfter 0 taken = 0
      · simp only [hzero, true_or, if_true, Option.some.injEq] at h
        exact .inr (.inl ⟨hzero, h.symm⟩)
      · by_cases hbig : 2 ^ 63 < digitsAfter 0 taken
        · rw [if_pos (.inr hbig), Option.some.injEq] at h
          subst h
          have hstands := Binary64.stands_ofRatio_of_le false (Nat.pos_of_ne_zero hzero) (by omega)
          exact .inr (.inr ⟨_, rfl, hstands.signed true, hbig⟩)
        · rw [if_neg (not_or.2 ⟨hzero, hbig⟩), Option.some.injEq] at h
          subst h
          refine .inl ⟨rfl, ?_, ?_⟩ <;> simp only [signed, if_true] <;> omega
  | cons d more =>
    simp only [List.isEmpty_cons, Bool.false_eq_true, if_false, significand, List.length_nil, Nat.cast_zero, sub_zero,
      Option.getD_none, Int.natAbs_zero, add_zero] at h
    rw [if_neg (by norm_num [twoPow])] at h
    obtain ⟨z, hz, rfl⟩ := Option.map_eq_some_iff.1 h
    obtain ⟨hstands, hlarge⟩ := stands_of_scaled hds (by simp) hlt hnext hz
    refine .inr (.inr ⟨_, rfl, hstands.signed negative, ?_⟩)
    rw [hword] at hlarge
    omega

/-! ## Integers as text -/

theorem numberText?_integral (negative : Bool) {ds : List Char} (hds : IsWhole ds) :
    numberText? (minus negative ++ ds) = some (numberOf? negative ds [] none, []) := by
  have hwhole : wholePart? ds = some (ds, []) := by
    have := wholePart?_append hds noDigit_nil
    rwa [List.append_nil] at this
  have hfraction : fractionPart? [] = some ([], []) := rfl
  have hexponent : exponentPart? [] = some (none, []) := rfl
  cases negative with
  | true => simp [numberText?, minus, hwhole, hfraction, hexponent]
  | false =>
    obtain ⟨d, more, rfl⟩ := List.exists_cons_of_ne_nil hds.ne_nil
    have hd : d ≠ '-' := by
      rintro rfl
      exact absurd (hds.isDigit '-' List.mem_cons_self) (by decide)
    simp [numberText?, minus, hd, hwhole, hfraction, hexponent]

/-- What starts with a digit or a minus is read as a number. -/
theorem valueAt_of_numberText? {c : Char} {cs rest : List Char} {n : Option JsonNumber} (hc : c.isDigit = true ∨ c = '-')
    (h : numberText? (c :: cs) = some (n, rest)) (fuel : Nat) : valueAt (fuel + 1) (c :: cs) = (.number n, rest) := by
  have hspace : skipSpace (c :: cs) = c :: cs := by
    have hnot : isSpace c = false := by
      rcases hc with hdigit | rfl
      · by_contra hsp
        simp only [isSpace, Bool.or_eq_true, beq_iff_eq, Bool.not_eq_false] at hsp
        rcases hsp with ((rfl | rfl) | rfl) | rfl <;> exact absurd hdigit (by decide)
      · decide
    rw [skipSpace, List.dropWhile_cons_of_neg (by simp [hnot])]
  have hother : ∀ d : Char, d.isDigit = false → d ≠ '-' → c ≠ d := by
    rintro d hd hminus rfl
    rcases hc with hdigit | rfl
    · rw [hd] at hdigit
      cases hdigit
    · exact hminus rfl
  rw [valueAt, hspace]
  split
  all_goals first
    | (rename_i heq; exact absurd (List.cons.inj heq).1 (hother _ (by decide) (by decide)))
    | simp only [h]

/-- An integer in JSON: a sign, and digits with no zero in front. -/
theorem ofText_integral (negative : Bool) {ds : List Char} (hds : IsWhole ds) :
    ofText (String.ofList (minus negative ++ ds)) = (.number (numberOf? negative ds [] none), true) := by
  have hnumber := numberText?_integral negative hds
  obtain ⟨c, cs, hcs⟩ : ∃ c cs, minus negative ++ ds = c :: cs :=
    List.exists_cons_of_ne_nil (by simp [hds.ne_nil])
  have hc : c.isDigit = true ∨ c = '-' := by
    cases negative with
    | true => exact .inr (List.cons.inj hcs).1.symm
    | false => exact .inl (hds.isDigit c (by rw [show ds = c :: cs from hcs]; exact List.mem_cons_self))
  rw [hcs] at hnumber ⊢
  simp only [ofText, String.toList_ofList, valueAt_of_numberText? hc hnumber]
  rfl

end JsonDraft

end Tariff
