import Mathlib
import Tariff.Binary64.Printer
import Tariff.Binary64.Reader
import Tariff.Proofs.Binary64.Error
import Tariff.Proofs.Binary64.Shortest
import Tariff.Proofs.Decimal.Digits
/-
  Tariff.Proofs.Binary64.Whole — large numbers are written as whole numbers.

  The shortest digits of a number are at most 17, so from 10^17 on the last of them does not stand after the point
  (`shortest_exponent_nonneg`). Such a number is written with the digits of a whole number that it stands for
  (`positional_of_large`). What is near a whole number is therefore written as a whole number near it
  (`Stands.positional`), though seldom as the same.
-/

namespace Tariff.Binary64

open Decimal (digits)

/-! ## Large numbers as text -/

theorem le_dropZeros (fuel k : Nat) (p : Int) : p ≤ (dropZeros fuel k p).2 := by
  induction fuel generalizing k p with
  | zero => exact le_rfl
  | succ fuel ih =>
    unfold dropZeros
    split
    · have := ih (k / 10) (p + 1)
      omega
    · exact le_rfl

section
variable {m : Nat} {e : Int}

theorem shortest_exponent_nonneg (hm : Normal m e) (h : 10 ^ 17 ≤ scaled m e) : 0 ≤ (shortest m e).2 := by
  obtain ⟨n, hn, hfound, -⟩ := exists_digitsAt? hm
  obtain ⟨k, -, hshortest⟩ := Option.map_eq_some_iff.1 hfound
  have hlead : 17 ≤ lead m e + 1 := by
    have hpow : (10 : ℚ) ^ (17 : ℤ) ≤ 10 ^ (lead m e + 1) := by
      refine le_trans ?_ (h.trans (lead_bounds hm).2)
      norm_num
    exact (zpow_le_zpow_iff_right₀ (by norm_num)).1 hpow
  have hlast : lead m e - n ≤ (shortest m e).2 := hshortest ▸ le_dropZeros 20 k _
  omega

/-- From 10^17 on a number is written with the digits of a whole number. -/
theorem positional_of_large (hm : Normal m e) (h : 10 ^ 17 ≤ scaled m e) (negative : Bool) : ∃ N : Nat, 0 < N ∧
    positional (.finite negative m e) = String.ofList (minus negative ++ digits N) ∧ InSpan m e N := by
  have hspan := shortest_inSpan hm
  have hexponent := shortest_exponent_nonneg hm h
  have hm0 : m ≠ 0 := by
    have := hm.le_mantissa
    omega
  rcases hshort : shortest m e with ⟨k, p⟩
  rw [hshort] at hspan hexponent
  obtain ⟨n, rfl⟩ : ∃ n : ℕ, p = n := ⟨p.toNat, by omega⟩
  have hvalue : decimal k n = ((k * 10 ^ n : ℕ) : ℚ) := by
    rw [decimal, zpow_natCast]
    push_cast
    ring
  rw [hvalue] at hspan
  have hk : 0 < k := by
    have hpos := hspan.pos hm
    by_contra h0
    obtain rfl : k = 0 := by omega
    simp at hpos
  refine ⟨k * 10 ^ n, Nat.mul_pos hk (by positivity), ?_, hspan⟩
  rw [positional, if_neg hm0, hshort]
  show String.ofList (minus negative ++ positionalDigits k n) = _
  rw [positionalDigits, if_pos (Int.natCast_nonneg n), Int.toNat_natCast, digits_mul_pow hk]

end

/-! ## What stands for a whole number -/

/-- The number has the sign, and is within 20 parts of the whole number. -/
def Stands (x : Binary64) (negative : Bool) (k : Nat) : Prop :=
  ∃ m e, x = .finite negative m e ∧ Normal m e ∧ Within 20 k (scaled m e)

section
variable {x : Binary64} {negative : Bool} {k : Nat}

/-- What is written for a large whole number is a whole number, within one part in 2^50 of it. -/
theorem Stands.positional (h : x.Stands negative k) (hk : 2 ^ 62 ≤ k) :
    ∃ N : Nat, 0 < N ∧ x.positional = String.ofList (minus negative ++ digits N) ∧
      |(N : ℤ) - k| * 2 ^ 50 ≤ k := by
  obtain ⟨m, e, rfl, hm, hnear⟩ := h
  have hkq : (2 : ℚ) ^ 62 ≤ k := by exact_mod_cast hk
  have hlarge : (10 : ℚ) ^ 17 ≤ scaled m e := by
    have hlow := hnear.low
    rw [part] at hlow
    norm_num at hlow ⊢
    linarith
  obtain ⟨N, hN, htext, hspan⟩ := positional_of_large hm hlarge negative
  refine ⟨N, hN, htext, ?_⟩
  have hdist := (hnear.trans (by norm_num) (by norm_num) (by positivity) (hspan.within_number hm)).dist_le
  have hparts : |(N : ℚ) - k| * 2 ^ 50 ≤ k := by
    rw [part] at hdist
    norm_num at hdist ⊢
    linarith
  exact_mod_cast hparts

/-- A whole number is rounded to a number that stands for it, or it is too large. -/
theorem stands_ofRatio (negative : Bool) (hk : 0 < k) :
    (ofRatio negative k 1).Stands negative k ∨ ofRatio negative k 1 = .infinite negative := by
  have hone : (1 : ℚ) ≤ (k : ℚ) / (1 : ℕ) := by
    rw [Nat.cast_one, div_one]
    exact_mod_cast hk
  refine (ofRatio_of_one_le negative Nat.one_pos hone).imp_left ?_
  rintro ⟨m, e, heq, hm, hspan⟩
  rw [Nat.cast_one, div_one] at hspan
  exact ⟨m, e, heq, hm, (hspan.within hm).mono (by norm_num) (by positivity)⟩

theorem stands_ofRatio_of_le (negative : Bool) (hk : 0 < k) (hle : k ≤ 2 ^ 100) :
    (ofRatio negative k 1).Stands negative k := by
  have hrange : InRange ((k : ℚ) / (1 : ℕ)) := by
    simpa using (Within.refl (k : ℚ)).inRange (moderate_of_nat hk hle) (by norm_num)
  obtain ⟨m, e, heq, hm, hspan⟩ := ofRatio_eq negative Nat.one_pos hrange
  rw [Nat.cast_one, div_one] at hspan
  exact ⟨m, e, heq, hm, (hspan.within hm).mono (by norm_num) (by positivity)⟩

theorem Stands.signed (h : x.Stands false k) (negative : Bool) :
    (if negative then x.negate else x).Stands negative k := by
  obtain ⟨m, e, rfl, hm, hnear⟩ := h
  cases negative with
  | false => exact ⟨m, e, rfl, hm, hnear⟩
  | true => exact ⟨m, e, rfl, hm, hnear⟩

/-- A power of ten is rounded to a number that stands for it, or it is too large. -/
theorem powerOfTen_cases (j : Nat) :
    (∃ m e, powerOfTen j = .finite false m e ∧ Normal m e ∧ Within 4 (10 ^ j) (scaled m e)) ∨
      powerOfTen j = .infinite false := by
  have hten : ((tenPow j : ℕ) : ℚ) / (1 : ℕ) = 10 ^ j := by simp [tenPow]
  have hone : (1 : ℚ) ≤ ((tenPow j : ℕ) : ℚ) / (1 : ℕ) := by
    rw [hten]
    exact one_le_pow₀ (by norm_num)
  refine (ofRatio_of_one_le false Nat.one_pos hone).imp_left ?_
  rintro ⟨m, e, heq, hm, hspan⟩
  rw [hten] at hspan
  exact ⟨m, e, heq, hm, hspan.within hm⟩

/-- Digits scaled by a power of ten are within 14 parts of the exact product, if it is not too large. -/
theorem ofScaled?_within {j : Nat} (h0 : 2 ≤ k) (hk : k ≤ 2 ^ 100) (h : ofScaled? k j = some x) :
    ∃ m e, x = .finite false m e ∧ Normal m e ∧ Within 14 (k * 10 ^ j) (scaled m e) := by
  obtain ⟨m, e, hx, hm, hspan⟩ := nearest_ofNat (by omega) hk
  have hzero : (finite false m e).isZero = false := by
    have := hm.le_mantissa
    rw [isZero, beq_eq_false_iff_ne]
    omega
  rw [ofScaled?] at h
  simp only [Int.natCast_nonneg, if_true, hx, hzero, Bool.false_eq_true, if_false, Int.toNat_natCast] at h
  by_cases hmax : maxPower < j
  · rw [if_pos hmax] at h
    cases h
  · rw [if_neg hmax] at h
    rcases powerOfTen_cases j with ⟨m', e', hy, hm', hpower⟩ | hy
    · have hproduct := (hspan.within hm).mul (by norm_num) (by norm_num) (by positivity) (by positivity) hpower
      have hone : 1 ≤ scaled m e * scaled m' e' := by
        have hlow := hproduct.low
        have hk2 : (2 : ℚ) ≤ k := by exact_mod_cast h0
        have hj : (1 : ℚ) ≤ 10 ^ j := one_le_pow₀ (by norm_num)
        have hexact : (2 : ℚ) ≤ k * 10 ^ j := by nlinarith
        rw [part] at hlow
        norm_num at hlow
        linarith
      rw [hy] at h
      rcases mulMagnitude_of_one_le hone with ⟨n, f, hz, hn, hround⟩ | hz
      · rw [hz] at h
        simp only [isFinite, if_true, Option.some.injEq] at h
        exact ⟨n, f, h.symm, hn, hproduct.trans (by norm_num) (by norm_num) (by positivity) (hround.within hn)⟩
      · rw [hz] at h
        simp [isFinite] at h
    · rw [hy] at h
      simp [mulMagnitude, isFinite] at h

end

end Tariff.Binary64
