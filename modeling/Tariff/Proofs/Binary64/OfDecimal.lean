import Mathlib
import Tariff.Binary64.OfDecimal
import Tariff.Proofs.Binary64.Error
/-
  Tariff.Proofs.Binary64.OfDecimal — the floating-point number that stands for an amount.

  The whole part and the fraction are converted apart, added, and rounded to the places of the
  amount. What comes out is the number nearest to something within 78 parts in 2^55 of the amount
  (`ofMantissa_within`). It is the number nearest to the amount itself if there is no fraction, or if
  the amount has fewer than 16 digits and at most 22 places (`ofMantissa_nearest`): then the power of
  ten is exact, and the error of the sum is less than half a unit of the last place, so that rounding
  to the places takes it away.
-/

namespace Tariff.Binary64

/-! ## Powers of ten -/

theorem tenPow_cast (n : Nat) : (tenPow n : ℚ) = 10 ^ n := by simp [tenPow]

theorem tenPow_pos (n : Nat) : 0 < tenPow n := Nat.pow_pos (by norm_num)

theorem tenPow_le {s : Nat} (hs : s ≤ 28) : tenPow s ≤ 2 ^ 94 :=
  (Nat.pow_le_pow_right (by norm_num) hs).trans (by norm_num)

/-- Up to 10^22 a power of ten is a number of 53 bits, twos apart. -/
theorem near_ofNat_tenPow {s : Nat} (hs : s ≤ 22) : Near 0 (ofNat (tenPow s)) (10 ^ s) := by
  have hfives : ((tenPow s : ℕ) : ℚ) = scaled (5 ^ s) s := by
    rw [tenPow_cast, scaled, zpow_natCast, Nat.cast_pow, ← mul_pow]
    norm_num
  rw [← tenPow_cast]
  refine near_ofNat_scaled hfives (tenPow_pos s) ((tenPow_le (by omega)).trans (by norm_num)) ?_
  exact (Nat.pow_le_pow_right (by norm_num) hs).trans_lt (by norm_num)

/-- The powers that are exact come out exact. -/
theorem powerBySquares_eq : ∀ s ≤ 22, powerBySquares s = ofNat (tenPow s) := by decide +kernel

/-- The powers beyond are products of two exact ones. -/
theorem powerBySquares_eq_mul : ∀ s ≤ 28, 22 < s →
    powerBySquares s = mulMagnitude (ofNat (tenPow (s - 16))) (ofNat (tenPow 16)) := by decide +kernel

theorem near_powerBySquares {s : Nat} (hs : s ≤ 22) : Near 0 (powerBySquares s) (10 ^ s) :=
  powerBySquares_eq s hs ▸ near_ofNat_tenPow hs

theorem near_powerBySquares_of_le {s : Nat} (hs : s ≤ 28) : Near 6 (powerBySquares s) (10 ^ s) := by
  rcases Nat.lt_or_ge 22 s with hlt | hle
  · have hsplit : (10 : ℚ) ^ s = 10 ^ (s - 16) * 10 ^ 16 := by rw [← pow_add, Nat.sub_add_cancel (by omega)]
    have hmoderate : Moderate ((10 : ℚ) ^ s) := by
      rw [← tenPow_cast]
      exact moderate_of_nat (tenPow_pos s) ((tenPow_le hs).trans (by norm_num))
    rw [powerBySquares_eq_mul s hs hlt, hsplit]
    exact (near_ofNat_tenPow (by omega)).mul (near_ofNat_tenPow (by norm_num)) (by positivity) (by positivity)
      (hsplit ▸ hmoderate) (by norm_num) (by norm_num)
  · exact (near_powerBySquares hle).mono (by norm_num) (by positivity)

/-! ## Amounts -/

section
variable {n s : Nat}

theorem moderate_quotient (h0 : 0 < n) (hn : n ≤ 2 ^ 96) (hs : s ≤ 28) : Moderate ((n : ℚ) / 10 ^ s) := by
  have hpow : (10 : ℚ) ^ s ≤ 2 ^ 94 := by exact_mod_cast tenPow_le hs
  have h1 : (1 : ℚ) ≤ n := by exact_mod_cast h0
  have h2 : (n : ℚ) ≤ 2 ^ 96 := by exact_mod_cast hn
  have hone : (1 : ℚ) ≤ 10 ^ s := one_le_pow₀ (by norm_num)
  constructor
  · rw [le_div_iff₀ (by positivity)]
    norm_num at hpow ⊢
    linarith
  · refine (div_le_self (by positivity) hone).trans (h2.trans ?_)
    norm_num

theorem Near.not_isZero {k : Nat} {x : Binary64} {q : ℚ} (h : Near k x q) (hq : 0 < q) (hk : k ≤ 256) :
    x.isZero = false := by
  obtain ⟨m, e, rfl, hw⟩ := h
  have hpos := hw.pos hq hk
  have hm : m ≠ 0 := fun h0 => by
    rw [h0, scaled, Nat.cast_zero, zero_mul] at hpos
    exact lt_irrefl _ hpos
  simpa [isZero] using hm

/-- A mantissa is its whole part and its fraction. -/
theorem whole_add_fraction (n s : Nat) :
    ((n / tenPow s : ℕ) : ℚ) + ((n % tenPow s : ℕ) : ℚ) / 10 ^ s = n / 10 ^ s := by
  have hpow : (0 : ℚ) < 10 ^ s := by positivity
  rw [eq_div_iff hpow.ne', add_mul, div_mul_cancel₀ _ hpow.ne', ← tenPow_cast]
  exact_mod_cast Nat.div_add_mod' n (tenPow s)

/-- Without a fraction only the whole part is converted. -/
theorem ofMantissa_whole (hs : s ≤ 28) (hr : n % tenPow s = 0) : ofMantissa n s = ofNat (n / tenPow s) := by
  rcases Nat.eq_zero_or_pos s with rfl | hpos
  · simp [ofMantissa, tenPow]
  · have hzero : (divMagnitude (ofNat 0) (ofNat (tenPow s))).isZero = true := by
      obtain ⟨m, e, heq, hw⟩ := near_ofNat ((tenPow_le hs).trans (by norm_num))
      have hpow : (0 : ℚ) < (tenPow s : ℕ) := by exact_mod_cast tenPow_pos s
      have hm : (magnitude m e).1 ≠ 0 := fun h0 => by
        have hscaled := hw.pos hpow (by norm_num)
        rw [← magnitude_ratio, h0, Nat.cast_zero, zero_div] at hscaled
        exact lt_irrefl _ hscaled
      have hofZero : ofNat 0 = .finite false 0 0 := rfl
      rw [heq, hofZero, divMagnitude, if_neg hm]
      simp [magnitude, ofRatio, isZero]
    rw [ofMantissa, if_neg hpos.ne', hr, if_pos hzero]

/-- The fraction of an amount as it is converted. -/
def fractionOf (n s : Nat) : Binary64 := divMagnitude (ofNat (n % tenPow s)) (ofNat (tenPow s))

/-- The whole part and the fraction, converted and added. -/
def sumOf (n s : Nat) : Binary64 := addMagnitude (ofNat (n / tenPow s)) (fractionOf n s)

theorem near_fractionOf (hs : s ≤ 28) (hr : 0 < n % tenPow s) :
    Near 16 (fractionOf n s) ((n % tenPow s : ℕ) / 10 ^ s) := by
  have hlt : n % tenPow s ≤ 2 ^ 94 := (Nat.mod_lt n (tenPow_pos s)).le.trans (tenPow_le hs)
  have hpow := near_ofNat ((tenPow_le hs).trans (by norm_num) : tenPow s ≤ 2 ^ 100)
  rw [tenPow_cast] at hpow
  exact (near_ofNat (hlt.trans (by norm_num))).div hpow (by positivity) (by positivity)
    (moderate_quotient hr (hlt.trans (by norm_num)) hs) (by norm_num) (by norm_num)

theorem ofMantissa_fraction (hs : s ≤ 28) (hr : 0 < n % tenPow s) : ofMantissa n s = roundTo s (sumOf n s) := by
  have hs0 : s ≠ 0 := by
    rintro rfl
    simp [tenPow, Nat.mod_one] at hr
  have hpos : (0 : ℚ) < (n % tenPow s : ℕ) / 10 ^ s := by
    have : (0 : ℚ) < (n % tenPow s : ℕ) := by exact_mod_cast hr
    positivity
  have hzero : (fractionOf n s).isZero = false := (near_fractionOf hs hr).not_isZero hpos (by norm_num)
  simp only [ofMantissa, if_neg hs0]
  rw [← fractionOf, hzero, if_neg Bool.false_ne_true, sumOf]

/-- The sum has three roundings behind it, and the fraction two more. -/
theorem near_sumOf (hn : n ≤ 2 ^ 96) (hs : s ≤ 28) (hr : 0 < n % tenPow s) :
    Near 21 (sumOf n s) (n / 10 ^ s) := by
  have h0 : 0 < n := hr.trans_le (Nat.mod_le n _)
  have hwhole : n / tenPow s ≤ 2 ^ 100 := (Nat.div_le_self n _).trans (hn.trans (by norm_num))
  have hmoderate := moderate_quotient h0 hn hs
  rw [← whole_add_fraction n s] at hmoderate ⊢
  exact ((near_ofNat hwhole).mono (by norm_num) (by positivity)).add (near_fractionOf hs hr) hmoderate (by norm_num)

/-- With few digits and places only the fraction and the sum are rounded. -/
theorem near_sumOf_of_short (hn : n < 10 ^ 15) (hs : s ≤ 22) (hr : 0 < n % tenPow s) :
    Near 11 (sumOf n s) (n / 10 ^ s) := by
  have h0 : 0 < n := hr.trans_le (Nat.mod_le n _)
  have hfew : ∀ m ≤ n, m < 2 ^ 53 := fun m hm => hm.trans_lt (hn.trans (by norm_num))
  have hmod : n % tenPow s ≤ n := Nat.mod_le n _
  have hmoderate := moderate_quotient h0 ((hfew n le_rfl).le.trans (by norm_num)) (hs.trans (by norm_num))
  have hfraction : Near 6 (fractionOf n s) ((n % tenPow s : ℕ) / 10 ^ s) :=
    (near_ofNat_of_lt (hfew _ hmod)).div (near_ofNat_tenPow hs) (by positivity) (by positivity)
      (moderate_quotient hr ((hfew _ hmod).le.trans (by norm_num)) (hs.trans (by norm_num))) (by norm_num)
      (by norm_num)
  rw [← whole_add_fraction n s] at hmoderate ⊢
  have hwhole := near_ofNat_of_lt (hfew _ (Nat.div_le_self n (tenPow s)))
  exact (hwhole.mono (by norm_num) (by positivity)).add hfraction hmoderate (by norm_num)

/-- In units of the last place the sum is near the mantissa. -/
theorem near_units {k l : Nat} {x unit : Binary64} (hx : Near k x ((n : ℚ) / 10 ^ s)) (hunit : Near l unit (10 ^ s))
    (h0 : 0 < n) (hn : n ≤ 2 ^ 96) (hk : k ≤ 100) (hl : l ≤ 100) : Near (k + l + 6) (mulMagnitude x unit) n := by
  have hcancel : (n : ℚ) / 10 ^ s * 10 ^ s = n := div_mul_cancel₀ _ (by positivity)
  have hmoderate : Moderate (n / 10 ^ s * 10 ^ s) := by
    rw [hcancel]
    exact moderate_of_nat h0 (hn.trans (by norm_num))
  have hproduct := hx.mul hunit (by positivity) (by positivity) hmoderate hk hl
  rwa [hcancel] at hproduct

/-- A whole number is rounded once. -/
theorem nearest_of_whole (h0 : 0 < n) (hn : n ≤ 2 ^ 96) (hs : s ≤ 28) (hr : n % tenPow s = 0) :
    Nearest (ofMantissa n s) ((n : ℚ) / 10 ^ s) := by
  have hwhole := whole_add_fraction n s
  rw [hr, Nat.cast_zero, zero_div, add_zero] at hwhole
  have hpos : (0 : ℚ) < (n / tenPow s : ℕ) := hwhole ▸ (moderate_quotient h0 hn hs).pos
  rw [ofMantissa_whole hs hr, ← hwhole]
  exact nearest_ofNat (by exact_mod_cast hpos) ((Nat.div_le_self n _).trans (hn.trans (by norm_num)))

/-- What stands for an amount is the number nearest to something within 78 parts of it. -/
theorem ofMantissa_within (h0 : 0 < n) (hn : n ≤ 2 ^ 96) (hs : s ≤ 28) :
    ∃ t, Nearest (ofMantissa n s) t ∧ Within 78 ((n : ℚ) / 10 ^ s) t := by
  have hmoderate := moderate_quotient h0 hn hs
  rcases Nat.eq_zero_or_pos (n % tenPow s) with hr | hr
  · exact ⟨_, nearest_of_whole h0 hn hs hr, (Within.refl _).mono (by norm_num) hmoderate.pos.le⟩
  · have hunit := near_powerBySquares_of_le hs
    obtain ⟨r, hround, hwithin, -⟩ :=
      (near_units (near_sumOf hn hs hr) hunit h0 hn (by norm_num) (by norm_num)).roundHalfUp
    have hr0 : 0 < r := by
      have : (0 : ℚ) < r := hwithin.pos (by exact_mod_cast h0) (by norm_num)
      exact_mod_cast this
    have hrle : r ≤ 2 ^ 100 := by
      have h1 := hwithin.high
      have h2 : (n : ℚ) ≤ 2 ^ 96 := by exact_mod_cast hn
      have h3 : (r : ℚ) ≤ 2 ^ 100 := by
        rw [part] at h1
        push_cast at h1
        linarith
      exact_mod_cast h3
    have hrounded : Near 71 (ofNat r) n :=
      (nearest_ofNat hr0 hrle).near (by positivity) (by norm_num) hwithin
    rw [ofMantissa_fraction hs hr, roundTo, hround]
    exact hrounded.div_nearest hunit (by positivity) (by positivity) hmoderate (by norm_num) (by norm_num)

/-- What stands for an amount is the number nearest to it, if the amount is a whole number or has few
digits and places. -/
theorem ofMantissa_nearest (h0 : 0 < n) (hn : n ≤ 2 ^ 96) (hs : s ≤ 28)
    (h : n % tenPow s = 0 ∨ s ≤ 22 ∧ n < 10 ^ 15) : Nearest (ofMantissa n s) ((n : ℚ) / 10 ^ s) := by
  have hmoderate := moderate_quotient h0 hn hs
  rcases Nat.eq_zero_or_pos (n % tenPow s) with hr | hr
  · exact nearest_of_whole h0 hn hs hr
  · obtain ⟨hs22, hshort⟩ := h.resolve_left hr.ne'
    have hunit := near_powerBySquares hs22
    obtain ⟨r, hround, -, hexact⟩ :=
      (near_units (near_sumOf_of_short hshort hs22 hr) hunit h0 hn (by norm_num) (by norm_num)).roundHalfUp
    have hrn : r = n := hexact (by
      have : (n : ℚ) < 10 ^ 15 := by exact_mod_cast hshort
      rw [part]
      push_cast
      linarith)
    rw [ofMantissa_fraction hs hr, roundTo, hround, hrn]
    exact (near_ofNat_of_lt (hshort.trans (by norm_num))).div_exact hunit (by positivity) hmoderate

end

end Tariff.Binary64
