import Mathlib
import Tariff.Binary64.Basic
/-
  Tariff.Proofs.Binary64.Rounding — the floating-point number of a ratio.

  A normal number `m · 2^e` stands for an interval of reals, half a unit to both sides, less below a
  power of two; the ends belong to it if the mantissa is even (`InSpan`). A ratio is rounded to a
  number in whose interval it lies (`ofRatio_eq`), unless it is too large for one
  (`ofRatio_of_one_le`). Two things follow for the number and whatever lies in its interval: they
  differ by at most one part in 2^53 (`InSpan.near`), and they are equal if the other one has a
  mantissa of 53 bits too (`InSpan.eq_of_short`).
-/

namespace Tariff.Binary64

/-! ## Ratios -/

/-- The number `m · 2^e`. -/
def scaled (m : Nat) (e : Int) : ℚ := m * 2 ^ e

theorem twoPow_cast (n : Nat) : (twoPow n : ℚ) = 2 ^ n := by simp [twoPow]

theorem twoPow_pos (n : Nat) : 0 < twoPow n := Nat.pow_pos (by norm_num)

/-- An exponent is a power of two to multiply or to divide by. -/
theorem exponent_cases (e : Int) : (∃ k : ℕ, e = k) ∨ ∃ k : ℕ, 0 < k ∧ e = -k := by
  rcases le_or_gt 0 e with h | h
  · exact .inl ⟨e.toNat, by omega⟩
  · exact .inr ⟨(-e).toNat, by omega, by omega⟩

theorem magnitude_snd_pos (m : Nat) (e : Int) : 0 < (magnitude m e).2 := by
  unfold magnitude
  split
  · exact Nat.one_pos
  · exact twoPow_pos _

theorem magnitude_ratio (m : Nat) (e : Int) : ((magnitude m e).1 : ℚ) / (magnitude m e).2 = scaled m e := by
  obtain ⟨k, rfl⟩ | ⟨k, hk, rfl⟩ := exponent_cases e
  · simp [magnitude, scaled, twoPow_cast]
  · rw [magnitude, if_neg (by omega)]
    simp [scaled, twoPow_cast, div_eq_mul_inv]

theorem scaleRatio_snd_pos (n : Nat) {d : Nat} (hd : 0 < d) (e : Int) : 0 < (scaleRatio n d e).2 := by
  unfold scaleRatio
  split
  · exact Nat.mul_pos hd (twoPow_pos _)
  · exact hd

theorem scaleRatio_ratio (n d : Nat) (e : Int) :
    ((scaleRatio n d e).1 : ℚ) / (scaleRatio n d e).2 = n / d / 2 ^ e := by
  obtain ⟨k, rfl⟩ | ⟨k, hk, rfl⟩ := exponent_cases e
  · simp [scaleRatio, twoPow_cast, div_div]
  · rw [scaleRatio, if_neg (by omega)]
    simp [twoPow_cast, mul_div_right_comm]

/-! ## Rounding to an integer -/

theorem roundEven_near (n : Nat) {d : Nat} (hd : 0 < d) :
    |(roundEven n d : ℚ) - n / d| ≤ 1 / 2 ∧ (roundEven n d % 2 = 1 → |(roundEven n d : ℚ) - n / d| < 1 / 2) := by
  have hdq : (0 : ℚ) < d := by exact_mod_cast hd
  have hsplit : (n : ℚ) / d = (n / d : ℕ) + (n % d : ℕ) / d := by
    rw [div_eq_iff hdq.ne', add_mul, div_mul_cancel₀ _ hdq.ne']
    exact_mod_cast (Nat.div_add_mod' n d).symm
  have hr0 : (0 : ℚ) ≤ (n % d : ℕ) / d := by positivity
  have hr1 : ((n % d : ℕ) : ℚ) / d < 1 := (div_lt_one hdq).2 (by exact_mod_cast Nat.mod_lt n hd)
  rw [hsplit]
  unfold roundEven
  dsimp only
  split
  · -- below the half
    rename_i hlow
    have hhalf : ((n % d : ℕ) : ℚ) / d < 1 / 2 := by
      rw [div_lt_div_iff₀ hdq two_pos, one_mul, mul_comm]
      exact_mod_cast hlow
    have hdist : |((n / d : ℕ) : ℚ) - ((n / d : ℕ) + (n % d : ℕ) / d)| < 1 / 2 := by
      rw [abs_sub_comm, add_sub_cancel_left, abs_of_nonneg hr0]
      exact hhalf
    exact ⟨hdist.le, fun _ => hdist⟩
  · split
    · -- above the half
      rename_i hhigh
      have hhalf : 1 / 2 < ((n % d : ℕ) : ℚ) / d := by
        rw [div_lt_div_iff₀ two_pos hdq, one_mul, mul_comm]
        exact_mod_cast hhigh
      have hdist : |((n / d + 1 : ℕ) : ℚ) - ((n / d : ℕ) + (n % d : ℕ) / d)| < 1 / 2 := by
        push_cast
        rw [add_sub_add_left_eq_sub, abs_of_pos (by linarith)]
        linarith
      exact ⟨hdist.le, fun _ => hdist⟩
    · -- on the half the even one is taken
      rename_i hlow hhigh
      have hhalf : ((n % d : ℕ) : ℚ) / d = 1 / 2 := by
        rw [div_eq_div_iff hdq.ne' two_ne_zero, one_mul, mul_comm]
        exact_mod_cast (by omega : 2 * (n % d) = d)
      rw [hhalf]
      constructor
      · rcases Nat.mod_two_eq_zero_or_one (n / d) with h | h <;> rw [h] <;> norm_num
      · intro hodd
        omega

/-! ## The exponent -/

/-- A ratio far from the ends of the range of normal numbers. -/
structure InRange (q : ℚ) : Prop where
  low : 2 ^ (-200 : ℤ) ≤ q
  high : q ≤ 2 ^ (200 : ℤ)

theorem InRange.pos {q : ℚ} (h : InRange q) : 0 < q := lt_of_lt_of_le (by positivity) h.low

/-- The exponent that the bit lengths suggest is right or one too large. -/
theorem guess_bounds {n d : Nat} (hn : 0 < n) (hd : 0 < d) :
    (2 : ℚ) ^ 51 < n / d / 2 ^ ((Nat.log2 n : ℤ) - Nat.log2 d - 52) ∧
      (n : ℚ) / d / 2 ^ ((Nat.log2 n : ℤ) - Nat.log2 d - 52) < 2 ^ 53 := by
  have hnq : (0 : ℚ) < n := by exact_mod_cast hn
  have hdq : (0 : ℚ) < d := by exact_mod_cast hd
  have hn1 : (2 : ℚ) ^ (Nat.log2 n) ≤ n := by exact_mod_cast Nat.log2_self_le hn.ne'
  have hn2 : (n : ℚ) < 2 ^ (Nat.log2 n) * 2 := by exact_mod_cast (pow_succ 2 (Nat.log2 n)) ▸ Nat.lt_log2_self
  have hd1 : (2 : ℚ) ^ (Nat.log2 d) ≤ d := by exact_mod_cast Nat.log2_self_le hd.ne'
  have hd2 : (d : ℚ) < 2 ^ (Nat.log2 d) * 2 := by exact_mod_cast (pow_succ 2 (Nat.log2 d)) ▸ Nat.lt_log2_self
  have hpow : (2 : ℚ) ^ ((Nat.log2 n : ℤ) - Nat.log2 d - 52) = 2 ^ (Nat.log2 n) / 2 ^ (Nat.log2 d) / 2 ^ 52 := by
    rw [zpow_sub₀ two_ne_zero, zpow_sub₀ two_ne_zero, zpow_natCast, zpow_natCast]
    norm_num
  have ha : (0 : ℚ) < 2 ^ (Nat.log2 n) := by positivity
  have hb : (0 : ℚ) < 2 ^ (Nat.log2 d) := by positivity
  have hform : (n : ℚ) / d / (2 ^ (Nat.log2 n) / 2 ^ (Nat.log2 d) / 2 ^ 52) =
      2 ^ 52 * (n * 2 ^ (Nat.log2 d)) / (d * 2 ^ (Nat.log2 n)) := by
    field_simp
  rw [hpow, hform]
  constructor
  · rw [lt_div_iff₀ (by positivity)]
    nlinarith [mul_lt_mul_of_pos_right hd2 ha, mul_le_mul_of_nonneg_right hn1 hb.le]
  · rw [div_lt_iff₀ (by positivity)]
    nlinarith [mul_lt_mul_of_pos_right hn2 hb, mul_le_mul_of_nonneg_right hd1 ha.le]

/-- The exponent that is tried gives a mantissa of 53 bits; it is taken unless it is too small. -/
theorem exists_exponent {n d : Nat} (hn : 0 < n) (hd : 0 < d) :
    ∃ e : ℤ, exponentOf n d = max e minExponent ∧
      (2 : ℚ) ^ 52 ≤ n / d / 2 ^ e ∧ (n : ℚ) / d / 2 ^ e < 2 ^ 53 := by
  obtain ⟨hlow, hhigh⟩ := guess_bounds hn hd
  refine ⟨_, rfl, ?_⟩
  set g : ℤ := (Nat.log2 n : ℤ) - Nat.log2 d - 52
  have hs : (0 : ℚ) < (scaleRatio n d g).2 := by exact_mod_cast scaleRatio_snd_pos n hd g
  have htest : (scaleRatio n d g).1 / (scaleRatio n d g).2 < normalBound ↔ (n : ℚ) / d / 2 ^ g < 2 ^ 52 := by
    rw [← scaleRatio_ratio, div_lt_iff₀ hs, Nat.div_lt_iff_lt_mul (scaleRatio_snd_pos n hd g),
      show normalBound = 2 ^ 52 from rfl]
    exact_mod_cast Iff.rfl
  split
  · rename_i h
    rw [htest] at h
    have hhalf : (n : ℚ) / d / 2 ^ (g - 1) = 2 * (n / d / 2 ^ g) := by
      rw [zpow_sub_one₀ two_ne_zero]
      field_simp
    rw [hhalf]
    constructor <;> linarith
  · rename_i h
    rw [htest, not_lt] at h
    exact ⟨h, hhigh⟩

/-- The exponent of a mantissa of 53 bits is as far from the ends as the ratio. -/
theorem InRange.exponent_bounds {q : ℚ} {e : Int} (hq : InRange q) (h1 : 2 ^ 52 * 2 ^ e ≤ q) (h2 : q < 2 ^ 53 * 2 ^ e) :
    -253 < e ∧ e ≤ 148 := by
  constructor
  · have hsplit : (2 : ℚ) ^ (-200 : ℤ) = 2 ^ 53 * 2 ^ (-253 : ℤ) := by
      rw [← zpow_natCast, ← zpow_add₀ two_ne_zero]
      norm_num
    have hlow := hq.low
    rw [hsplit] at hlow
    have hpow : (2 : ℚ) ^ (-253 : ℤ) < 2 ^ e := lt_of_mul_lt_mul_left (hlow.trans_lt h2) (by positivity)
    exact (zpow_lt_zpow_iff_right₀ one_lt_two).1 hpow
  · have hsplit : (2 : ℚ) ^ (200 : ℤ) = 2 ^ 52 * 2 ^ (148 : ℤ) := by
      rw [← zpow_natCast, ← zpow_add₀ two_ne_zero]
      norm_num
    have hhigh := hq.high
    rw [hsplit] at hhigh
    have hpow : (2 : ℚ) ^ e ≤ 2 ^ (148 : ℤ) := le_of_mul_le_mul_left (h1.trans hhigh) (by positivity)
    exact (zpow_le_zpow_iff_right₀ one_lt_two).1 hpow

/-- At its exponent a ratio has a mantissa of 53 bits before it is rounded. -/
theorem exponentOf_bounds {n d : Nat} (hn : 0 < n) (hd : 0 < d) (hq : InRange ((n : ℚ) / d)) :
    (2 : ℚ) ^ 52 ≤ n / d / 2 ^ exponentOf n d ∧ (n : ℚ) / d / 2 ^ exponentOf n d < 2 ^ 53 ∧
      minExponent < exponentOf n d ∧ exponentOf n d < maxExponent := by
  obtain ⟨e, he, h1, h2⟩ := exists_exponent hn hd
  have hpow : (0 : ℚ) < 2 ^ e := by positivity
  obtain ⟨hmin, hmax⟩ := hq.exponent_bounds ((le_div_iff₀ hpow).1 h1) ((div_lt_iff₀ hpow).1 h2)
  have hclamp : exponentOf n d = e := by rw [he, max_eq_left (by unfold minExponent; omega)]
  rw [hclamp]
  unfold minExponent maxExponent
  exact ⟨h1, h2, by omega, by omega⟩

/-! ## The interval of a number -/

/-- A normal number: its mantissa has 53 bits. -/
structure Normal (m : Nat) (e : Int) : Prop where
  le_mantissa : 2 ^ 52 ≤ m
  mantissa_lt : m < 2 ^ 53
  lt_exponent : minExponent < e
  exponent_le : e ≤ maxExponent

/-- How far the interval of `m · 2^e` reaches below it, in units of 2^e: the numbers below a power
of two stand closer. -/
def reachBelow (m : Nat) : ℚ := if m = normalBound then 1 / 4 else 1 / 2

/-- The reals that `m · 2^e` stands for. -/
structure InSpan (m : Nat) (e : Int) (q : ℚ) : Prop where
  low : (m - reachBelow m) * 2 ^ e ≤ q
  high : q ≤ (m + 1 / 2) * 2 ^ e
  odd : m % 2 = 1 → (m - reachBelow m) * 2 ^ e < q ∧ q < (m + 1 / 2) * 2 ^ e

theorem reachBelow_le (m : Nat) : 1 / 4 ≤ reachBelow m ∧ reachBelow m ≤ 1 / 2 := by
  unfold reachBelow
  split <;> norm_num

/-- A mantissa that is rounded to another stands for it. -/
theorem InSpan.of_rounded {r : Nat} {x : ℚ} (hnear : |(r : ℚ) - x| ≤ 1 / 2) (hodd : r % 2 = 1 → |(r : ℚ) - x| < 1 / 2)
    (hx : 2 ^ 52 ≤ x) (e : Int) : InSpan r e (x * 2 ^ e) := by
  have hpow : (0 : ℚ) < 2 ^ e := by positivity
  obtain ⟨habove, hbelow⟩ := abs_le.1 hnear
  refine ⟨?_, mul_le_mul_of_nonneg_right (by linarith) hpow.le, fun h => ?_⟩
  · refine mul_le_mul_of_nonneg_right ?_ hpow.le
    rw [reachBelow]
    split
    · -- nothing below a power of two is rounded to it
      rename_i hbound
      rw [hbound, show normalBound = 2 ^ 52 from rfl]
      push_cast
      linarith
    · linarith
  · obtain ⟨h1, h2⟩ := abs_lt.1 (hodd h)
    have hbound : r ≠ normalBound := fun hr => by rw [hr] at h; exact absurd h (by decide)
    rw [reachBelow, if_neg hbound]
    exact ⟨mul_lt_mul_of_pos_right (by linarith) hpow, mul_lt_mul_of_pos_right (by linarith) hpow⟩

/-- A mantissa that is rounded up to the next power of two is half of it, one exponent on. -/
theorem InSpan.of_carried {x : ℚ} (h1 : 2 ^ 53 - 1 / 2 ≤ x) (h2 : x < 2 ^ 53) (e : Int) :
    InSpan (2 ^ 52) (e + 1) (x * 2 ^ e) := by
  have hpow : (0 : ℚ) < 2 ^ e := by positivity
  have hnext : ∀ y : ℚ, y * 2 ^ (e + 1) = y * 2 * 2 ^ e := fun y => by
    rw [zpow_add_one₀ two_ne_zero]
    ring
  refine ⟨?_, ?_, by norm_num⟩
  · rw [reachBelow, if_pos (by decide), hnext]
    refine mul_le_mul_of_nonneg_right ?_ hpow.le
    push_cast
    linarith
  · rw [hnext]
    refine mul_le_mul_of_nonneg_right ?_ hpow.le
    push_cast
    linarith

/-- A mantissa of 53 bits is rounded to one, or to the next power of two. -/
theorem rounded_bounds {r : Nat} {x : ℚ} (hnear : |(r : ℚ) - x| ≤ 1 / 2) (h1 : 2 ^ 52 ≤ x) (h2 : x < 2 ^ 53) :
    2 ^ 52 ≤ r ∧ r ≤ 2 ^ 53 := by
  obtain ⟨habove, hbelow⟩ := abs_le.1 hnear
  constructor
  · have : (2 : ℚ) ^ 52 < r + 1 := by linarith
    exact Nat.lt_succ_iff.1 (by exact_mod_cast this)
  · have : (r : ℚ) < 2 ^ 53 + 1 := by linarith
    exact Nat.lt_succ_iff.1 (by exact_mod_cast this)

/-- A ratio whose exponent is above the least one is rounded to a number that stands for it, unless it is too
large for one. -/
theorem ofRatio_cases (negative : Bool) {n d : Nat} (hn : 0 < n) (hd : 0 < d)
    (hlow : (2 : ℚ) ^ 52 ≤ n / d / 2 ^ exponentOf n d) (hhigh : (n : ℚ) / d / 2 ^ exponentOf n d < 2 ^ 53)
    (hmin : minExponent < exponentOf n d) :
    (∃ m e, ofRatio negative n d = .finite negative m e ∧ Normal m e ∧ InSpan m e (n / d)) ∨
      (ofRatio negative n d = .infinite negative ∧ maxExponent ≤ exponentOf n d) := by
  obtain ⟨hnear, hodd⟩ := roundEven_near (scaleRatio n d (exponentOf n d)).1
    (scaleRatio_snd_pos n hd (exponentOf n d))
  rw [scaleRatio_ratio] at hnear hodd
  simp only [ofRatio, if_neg hn.ne', show mantissaBound = 2 ^ 53 from rfl, show normalBound = 2 ^ 52 from rfl]
  set e := exponentOf n d
  set r := roundEven (scaleRatio n d e).1 (scaleRatio n d e).2
  have hpow : (2 : ℚ) ^ e ≠ 0 := by positivity
  obtain ⟨x, hx⟩ : ∃ x : ℚ, (n : ℚ) / d / 2 ^ e = x := ⟨_, rfl⟩
  have hq' : (n : ℚ) / d = x * 2 ^ e := by rw [← hx, div_mul_cancel₀ _ hpow]
  rw [hx] at hlow hhigh hnear hodd
  obtain ⟨hr1, hr2⟩ := rounded_bounds hnear hlow hhigh
  rw [hq']
  rcases hr2.eq_or_lt with hcarry | hlt
  · have hx1 : (2 : ℚ) ^ 53 - 1 / 2 ≤ x := by
      have hbelow := (abs_le.1 hnear).2
      rw [hcarry] at hbelow
      push_cast at hbelow
      linarith
    rw [if_pos hcarry, if_pos hcarry, if_neg (by norm_num)]
    by_cases hmax : maxExponent < e + 1
    · rw [if_pos hmax]
      exact .inr ⟨rfl, by omega⟩
    · rw [if_neg hmax]
      exact .inl ⟨2 ^ 52, e + 1, rfl, ⟨le_rfl, by norm_num, by omega, by omega⟩, .of_carried hx1 hhigh e⟩
  · rw [if_neg hlt.ne, if_neg hlt.ne, if_neg (by omega)]
    by_cases hmax : maxExponent < e
    · rw [if_pos hmax]
      exact .inr ⟨rfl, hmax.le⟩
    · rw [if_neg hmax]
      exact .inl ⟨r, e, rfl, ⟨hr1, hlt, hmin, not_lt.1 hmax⟩, .of_rounded hnear hodd hlow e⟩

/-- A ratio is rounded to a number that stands for it. -/
theorem ofRatio_eq (negative : Bool) {n d : Nat} (hd : 0 < d) (hq : InRange ((n : ℚ) / d)) :
    ∃ m e, ofRatio negative n d = .finite negative m e ∧ Normal m e ∧ InSpan m e (n / d) := by
  have hn : 0 < n := by
    by_contra h0
    obtain rfl : n = 0 := by omega
    simpa using hq.pos
  obtain ⟨hlow, hhigh, hmin, hmax⟩ := exponentOf_bounds hn hd hq
  exact (ofRatio_cases negative hn hd hlow hhigh hmin).resolve_right fun h => absurd h.2 (not_le.2 hmax)

/-- From one on a ratio is rounded to a number that stands for it, or it is too large. -/
theorem ofRatio_of_one_le (negative : Bool) {n d : Nat} (hd : 0 < d) (hq : 1 ≤ (n : ℚ) / d) :
    (∃ m e, ofRatio negative n d = .finite negative m e ∧ Normal m e ∧ InSpan m e (n / d)) ∨
      ofRatio negative n d = .infinite negative := by
  have hn : 0 < n := by
    by_contra h0
    obtain rfl : n = 0 := by omega
    norm_num at hq
  obtain ⟨e, he, hlow, hhigh⟩ := exists_exponent hn hd
  have hpow : (0 : ℚ) < 2 ^ e := by positivity
  have hexponent : -53 < e := by
    have hone : (1 : ℚ) < 2 ^ 53 * 2 ^ e := hq.trans_lt ((div_lt_iff₀ hpow).1 hhigh)
    have hinverse : (2 : ℚ) ^ (-53 : ℤ) < 2 ^ e := by
      rw [zpow_neg, inv_lt_iff_one_lt_mul₀ (by positivity), mul_comm]
      exact_mod_cast hone
    exact (zpow_lt_zpow_iff_right₀ one_lt_two).1 hinverse
  have hclamp : exponentOf n d = e := by rw [he, max_eq_left (by unfold minExponent; omega)]
  rw [← hclamp] at hlow hhigh
  have hmin : minExponent < exponentOf n d := by
    rw [hclamp]
    unfold minExponent
    omega
  exact (ofRatio_cases negative hn hd hlow hhigh hmin).imp_right And.left

/-- The number is normal and has no sign, and stands for `q`. -/
def Nearest (x : Binary64) (q : ℚ) : Prop := ∃ m e, x = .finite false m e ∧ Normal m e ∧ InSpan m e q

theorem nearest_ofRatio {n d : Nat} (hd : 0 < d) (hq : InRange ((n : ℚ) / d)) : Nearest (ofRatio false n d) (n / d) :=
  ofRatio_eq false hd hq

/-! ## What lies in one interval -/

section
variable {m : Nat} {e : Int} {q : ℚ}

theorem Normal.pos (hm : Normal m e) : 0 < scaled m e := by
  have : (0 : ℚ) < m := by exact_mod_cast (by norm_num : 0 < 2 ^ 52).trans_le hm.le_mantissa
  exact mul_pos this (by positivity)

/-- The interval reaches half a unit to both sides. -/
theorem InSpan.dist_le (h : InSpan m e q) : |scaled m e - q| ≤ 2 ^ e / 2 := by
  have hpow : (0 : ℚ) < 2 ^ e := by positivity
  have hreach := mul_le_mul_of_nonneg_right (reachBelow_le m).2 hpow.le
  have hlow := h.low
  have hhigh := h.high
  rw [sub_mul] at hlow
  rw [add_mul] at hhigh
  rw [scaled, abs_le]
  constructor <;> linarith

/-- What a number stands for differs from it by at most one part in 2^53 of the number. -/
theorem InSpan.dist_le_number (hm : Normal m e) (h : InSpan m e q) :
    |scaled m e - q| ≤ 1 / 2 ^ 53 * scaled m e := by
  have hpow : (0 : ℚ) < 2 ^ e := by positivity
  have hmq : (2 : ℚ) ^ 52 ≤ m := by exact_mod_cast hm.le_mantissa
  refine h.dist_le.trans ?_
  rw [scaled]
  nlinarith [mul_le_mul_of_nonneg_right hmq hpow.le]

/-- The lower end of an interval is at most a quarter of a unit below 2^52 units, and how far it reaches
down is at most one part in 2^53 of that end. -/
theorem Normal.reach (hm : Normal m e) :
    2 ^ 52 - 1 / 4 ≤ m - reachBelow m ∧ 2 ^ 53 * reachBelow m ≤ m - reachBelow m := by
  rcases hm.le_mantissa.eq_or_lt with heq | hlt
  · have hreach : reachBelow m = 1 / 4 := if_pos heq.symm
    rw [hreach, ← heq]
    push_cast
    constructor <;> linarith
  · have hmq : (2 : ℚ) ^ 52 + 1 ≤ m := by exact_mod_cast hlt
    have hreach := (reachBelow_le m).2
    constructor <;> linarith

theorem InSpan.pos (hm : Normal m e) (h : InSpan m e q) : 0 < q :=
  lt_of_lt_of_le (mul_pos (lt_of_lt_of_le (by norm_num) hm.reach.1) (by positivity)) h.low

/-- It differs by at most one part in 2^53 of itself. -/
theorem InSpan.near (hm : Normal m e) (h : InSpan m e q) : |scaled m e - q| ≤ 1 / 2 ^ 53 * q := by
  have hpow : (0 : ℚ) < 2 ^ e := by positivity
  have hlow := h.low
  have hhigh := h.high
  have hreach := mul_le_mul_of_nonneg_right hm.reach.2 hpow.le
  have hmq : (2 : ℚ) ^ 52 ≤ m := by exact_mod_cast hm.le_mantissa
  have hmul := mul_le_mul_of_nonneg_right hmq hpow.le
  rw [sub_mul] at hlow hreach
  rw [add_mul] at hhigh
  rw [scaled, abs_le]
  constructor <;> linarith

/-- Whole multiples of one unit that lie that close are one number. -/
theorem InSpan.eq_of_multiple (k i : Nat) (h : InSpan m e (scaled k (e + i))) : scaled m e = scaled k (e + i) := by
  have hpow : (0 : ℚ) < 2 ^ e := by positivity
  have hdist := h.dist_le
  have hdiff : scaled m e - scaled k (e + i) = (((m : ℤ) - k * 2 ^ i : ℤ) : ℚ) * 2 ^ e := by
    rw [scaled, scaled, zpow_add₀ two_ne_zero, zpow_natCast]
    push_cast
    ring
  rw [hdiff, abs_mul, abs_of_pos hpow] at hdist
  have hsmall : |(((m : ℤ) - k * 2 ^ i : ℤ) : ℚ)| < 1 := by
    by_contra hge
    have := mul_le_mul_of_nonneg_right (not_lt.1 hge) hpow.le
    linarith
  have hzero : ((m : ℤ) - k * 2 ^ i : ℤ) = 0 := Int.abs_lt_one_iff.1 (by exact_mod_cast hsmall)
  rw [← sub_eq_zero, hdiff, hzero, Int.cast_zero, zero_mul]

/-- Of a smaller unit 53 bits do not reach the interval. -/
theorem InSpan.le_exponent (hm : Normal m e) {k : Nat} {j : Int} (h : InSpan m e (scaled k j)) (hk : k < 2 ^ 53) :
    e ≤ j := by
  by_contra hlt
  have hunit : (2 : ℚ) ^ j ≤ 2 ^ e / 2 := by
    rw [div_eq_mul_inv, ← zpow_sub_one₀ two_ne_zero]
    exact zpow_le_zpow_right₀ one_le_two (by omega)
  have hkq : (k : ℚ) ≤ 2 ^ 53 - 1 := by
    have : (k : ℚ) + 1 ≤ 2 ^ 53 := by exact_mod_cast hk
    linarith
  have hle : scaled k j ≤ (2 ^ 53 - 1) * (2 ^ e / 2) := mul_le_mul hkq hunit (by positivity) (by norm_num)
  have hlow := (mul_le_mul_of_nonneg_right hm.reach.1 (by positivity : (0 : ℚ) ≤ 2 ^ e)).trans h.low
  have hpow : (0 : ℚ) < 2 ^ e := by positivity
  linarith

/-- A number of 53 bits stands for no other one. -/
theorem InSpan.eq_of_short (hm : Normal m e) {k : Nat} {j : Int} (h : InSpan m e (scaled k j)) (hk : k < 2 ^ 53) :
    scaled m e = scaled k j := by
  obtain ⟨i, rfl⟩ : ∃ i : ℕ, j = e + i := ⟨(j - e).toNat, by have := h.le_exponent hm hk; omega⟩
  exact h.eq_of_multiple k i

end

end Tariff.Binary64
