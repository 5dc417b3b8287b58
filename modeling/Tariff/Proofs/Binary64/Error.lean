import Mathlib
import Tariff.Proofs.Binary64.Rounding
/-
  Tariff.Proofs.Binary64.Error — how far rounded arithmetic gets from the exact result.

  A number is within `k` parts in 2^55 of another (`Within`), and a rounding puts it at most four
  such parts off. What errors the operands have goes into a sum, a product or a quotient, and the
  parts of parts that arise on the way are less than one part: so a sum adds five parts to the larger
  error of its terms (`Near.add`), and a product or a quotient six to both errors (`Near.mul`,
  `Near.div`). Counted in this way an error is a number that can be read off a computation.
-/

namespace Tariff.Binary64

/-! ## Parts -/

/-- One part in 2^55. -/
def part : ℚ := 1 / 2 ^ 55

theorem part_pos : 0 < part := by norm_num [part]

/-- So many parts stay small, and so do parts of parts. -/
theorem mul_part_le {k : Nat} (hk : k ≤ 256) : k * part ≤ 1 / 2 ^ 47 := by
  have hkq : (k : ℚ) ≤ 256 := by exact_mod_cast hk
  rw [part]
  linarith

theorem parts_of_parts_le {k l : Nat} (hk : k ≤ 256) (hl : l ≤ 256) : k * part * (l * part) ≤ 1 / 2 ^ 30 * part := by
  have h := mul_le_mul (mul_part_le hk) (mul_part_le hl) (by have := part_pos; positivity) (by norm_num)
  refine h.trans ?_
  norm_num [part]

/-- `t` is within `k` parts of `q`. -/
structure Within (k : Nat) (q t : ℚ) : Prop where
  low : (1 - k * part) * q ≤ t
  high : t ≤ (1 + k * part) * q

namespace Within

variable {k l : Nat} {p q s t : ℚ}

theorem refl (q : ℚ) : Within 0 q q := ⟨by simp, by simp⟩

theorem mono (h : Within k q t) (hkl : k ≤ l) (hq : 0 ≤ q) : Within l q t := by
  have hparts : (k : ℚ) * part ≤ l * part := mul_le_mul_of_nonneg_right (by exact_mod_cast hkl) part_pos.le
  have hmul := mul_le_mul_of_nonneg_right hparts hq
  have hlow := h.low
  have hhigh := h.high
  constructor <;> linarith

theorem of_abs (h : |t - q| ≤ k * part * q) : Within k q t := by
  obtain ⟨h1, h2⟩ := abs_le.1 h
  constructor <;> linarith

theorem eq_of_zero (h : Within 0 q t) : t = q := by
  have hlow := h.low
  have hhigh := h.high
  norm_num at hlow hhigh
  exact le_antisymm hhigh hlow

theorem dist_le (h : Within k q t) : |t - q| ≤ k * part * q := by
  have hlow := h.low
  have hhigh := h.high
  rw [abs_le]
  constructor <;> linarith

theorem nonneg (h : Within k q t) (hq : 0 ≤ q) (hk : k ≤ 256) : 0 ≤ t := by
  have := mul_part_le hk
  exact le_trans (mul_nonneg (by norm_num at this ⊢; linarith) hq) h.low

theorem pos (h : Within k q t) (hq : 0 < q) (hk : k ≤ 256) : 0 < t := by
  have := mul_part_le hk
  exact lt_of_lt_of_le (mul_pos (by norm_num at this ⊢; linarith) hq) h.low

/-! ### Two errors

Of two factors the parts add up, and one more is left for the parts of parts. -/

theorem le_factors (k l : Nat) : 1 - ((k + l + 1 : ℕ) : ℚ) * part ≤ (1 - k * part) * (1 - l * part) := by
  have := part_pos
  have : 0 ≤ (k : ℚ) * part * (l * part) := by positivity
  push_cast
  linarith

theorem quotient_le (k l : Nat) : (1 - ((k + l + 1 : ℕ) : ℚ) * part) * (1 + l * part) ≤ 1 - k * part := by
  have := part_pos
  have : 0 ≤ (k : ℚ) * part * (l * part) := by positivity
  have : 0 ≤ (l : ℚ) * part * (l * part) := by positivity
  have : 0 ≤ (l : ℚ) * part * part := by positivity
  push_cast
  linarith

section
variable (hk : k ≤ 256) (hl : l ≤ 256)
include hk hl

theorem factors_le : (1 + k * part) * (1 + l * part) ≤ 1 + ((k + l + 1 : ℕ) : ℚ) * part := by
  have := parts_of_parts_le hk hl
  have := part_pos
  push_cast
  linarith

theorem le_quotient : 1 + k * part ≤ (1 + ((k + l + 1 : ℕ) : ℚ) * part) * (1 - l * part) := by
  have := parts_of_parts_le hk hl
  have := parts_of_parts_le hl hl
  have := mul_le_mul_of_nonneg_right (mul_part_le hl) part_pos.le
  have := part_pos
  push_cast
  linarith

theorem factor_pos : 0 ≤ 1 - k * part ∧ 0 < 1 - l * part := by
  have hkp := mul_part_le hk
  have hlp := mul_part_le hl
  norm_num at hkp hlp
  constructor <;> linarith

theorem trans (hp : 0 ≤ p) (h : Within k p s) (h' : Within l s t) : Within (k + l + 1) p t := by
  have := part_pos
  constructor
  · calc (1 - ((k + l + 1 : ℕ) : ℚ) * part) * p
        ≤ (1 - k * part) * (1 - l * part) * p := mul_le_mul_of_nonneg_right (le_factors k l) hp
      _ = (1 - l * part) * ((1 - k * part) * p) := by ring
      _ ≤ (1 - l * part) * s := mul_le_mul_of_nonneg_left h.low (factor_pos hk hl).2.le
      _ ≤ t := h'.low
  · calc t ≤ (1 + l * part) * s := h'.high
      _ ≤ (1 + l * part) * ((1 + k * part) * p) := mul_le_mul_of_nonneg_left h.high (by positivity)
      _ = (1 + k * part) * (1 + l * part) * p := by ring
      _ ≤ (1 + ((k + l + 1 : ℕ) : ℚ) * part) * p := mul_le_mul_of_nonneg_right (factors_le hk hl) hp

theorem mul (hp : 0 ≤ p) (hq : 0 ≤ q) (hs : Within k p s) (ht : Within l q t) :
    Within (k + l + 1) (p * q) (s * t) := by
  have := part_pos
  obtain ⟨hk0, hl0⟩ := factor_pos hk hl
  constructor
  · calc (1 - ((k + l + 1 : ℕ) : ℚ) * part) * (p * q)
        ≤ (1 - k * part) * (1 - l * part) * (p * q) :=
          mul_le_mul_of_nonneg_right (le_factors k l) (mul_nonneg hp hq)
      _ = (1 - k * part) * p * ((1 - l * part) * q) := by ring
      _ ≤ s * t := mul_le_mul hs.low ht.low (mul_nonneg hl0.le hq) (hs.nonneg hp hk)
  · calc s * t ≤ (1 + k * part) * p * ((1 + l * part) * q) :=
          mul_le_mul hs.high ht.high (ht.nonneg hq hl) (by positivity)
      _ = (1 + k * part) * (1 + l * part) * (p * q) := by ring
      _ ≤ (1 + ((k + l + 1 : ℕ) : ℚ) * part) * (p * q) :=
          mul_le_mul_of_nonneg_right (factors_le hk hl) (mul_nonneg hp hq)

theorem div (hp : 0 ≤ p) (hq : 0 < q) (hs : Within k p s) (ht : Within l q t) :
    Within (k + l + 1) (p / q) (s / t) := by
  have := part_pos
  have ht0 := ht.pos hq hl
  have hpq : 0 ≤ p / q := by positivity
  have hfactor : 0 ≤ 1 - ((k + l + 1 : ℕ) : ℚ) * part := by
    have := mul_part_le hk
    have := mul_part_le hl
    have hpart : part ≤ 1 / 2 ^ 47 := by norm_num [part]
    push_cast
    norm_num at *
    linarith
  constructor
  · rw [le_div_iff₀ ht0]
    calc (1 - ((k + l + 1 : ℕ) : ℚ) * part) * (p / q) * t
        ≤ (1 - ((k + l + 1 : ℕ) : ℚ) * part) * (p / q) * ((1 + l * part) * q) :=
          mul_le_mul_of_nonneg_left ht.high (mul_nonneg hfactor hpq)
      _ = (1 - ((k + l + 1 : ℕ) : ℚ) * part) * (1 + l * part) * p := by field_simp
      _ ≤ (1 - k * part) * p := mul_le_mul_of_nonneg_right (quotient_le k l) hp
      _ ≤ s := hs.low
  · rw [div_le_iff₀ ht0]
    calc s ≤ (1 + k * part) * p := hs.high
      _ ≤ (1 + ((k + l + 1 : ℕ) : ℚ) * part) * (1 - l * part) * p :=
          mul_le_mul_of_nonneg_right (le_quotient hk hl) hp
      _ = (1 + ((k + l + 1 : ℕ) : ℚ) * part) * (p / q) * ((1 - l * part) * q) := by field_simp
      _ ≤ (1 + ((k + l + 1 : ℕ) : ℚ) * part) * (p / q) * t :=
          mul_le_mul_of_nonneg_left ht.low (by positivity)

end

theorem add (hs : Within k p s) (ht : Within k q t) : Within k (p + q) (s + t) := by
  have h1 := hs.low
  have h2 := hs.high
  have h3 := ht.low
  have h4 := ht.high
  constructor <;> linarith

/-- Rounding to an integer at most doubles an error that is of a whole number. -/
theorem of_half {n : Nat} {x : ℚ} {r : Nat} (hx : Within k n x) (hr : |(r : ℚ) - x| ≤ 1 / 2) :
    Within (2 * k) n r := by
  have hsum : |(r : ℚ) - n| ≤ 1 / 2 + k * part * n := by
    have htriangle := abs_add_le ((r : ℚ) - x) (x - n)
    rw [sub_add_sub_cancel] at htriangle
    exact htriangle.trans (add_le_add hr hx.dist_le)
  apply of_abs
  push_cast
  by_cases heq : r = n
  · have := part_pos
    rw [heq, sub_self, abs_zero]
    positivity
  · have hone : (1 : ℚ) ≤ |(r : ℚ) - n| := by
      have : (1 : ℤ) ≤ |(r : ℤ) - n| := Int.one_le_abs (by omega)
      exact_mod_cast this
    linarith

end Within

/-! ## Rounded arithmetic -/

/-- The range in which amounts lie, and the powers of ten of their places. -/
structure Moderate (q : ℚ) : Prop where
  low : 2 ^ (-100 : ℤ) ≤ q
  high : q ≤ 2 ^ (100 : ℤ)

theorem Moderate.pos {q : ℚ} (h : Moderate q) : 0 < q := lt_of_lt_of_le (by positivity) h.low

theorem Within.inRange {k : Nat} {q t : ℚ} (h : Within k q t) (hq : Moderate q) (hk : k ≤ 256) : InRange t := by
  have hparts := mul_part_le hk
  have hlow := hq.low
  have hhigh := hq.high
  have hpos := hq.pos
  have h1 := h.low
  have h2 := h.high
  norm_num at hparts hlow hhigh
  have hhalf : q / 2 ≤ t := by nlinarith
  have hdouble : t ≤ 2 * q := by nlinarith
  constructor
  · refine le_trans ?_ hhalf
    norm_num
    linarith
  · refine hdouble.trans ?_
    norm_num
    linarith

/-- A number is within four parts of what it stands for, and that is within four parts of the number. -/
theorem InSpan.within {m : Nat} {e : Int} {q : ℚ} (hm : Normal m e) (h : InSpan m e q) : Within 4 q (scaled m e) := by
  have hfour : ((4 : ℕ) : ℚ) * part = 1 / 2 ^ 53 := by norm_num [part]
  exact .of_abs (hfour ▸ h.near hm)

theorem InSpan.within_number {m : Nat} {e : Int} {q : ℚ} (hm : Normal m e) (h : InSpan m e q) :
    Within 4 (scaled m e) q := by
  have hfour : ((4 : ℕ) : ℚ) * part = 1 / 2 ^ 53 := by norm_num [part]
  exact .of_abs (hfour ▸ abs_sub_comm (scaled m e) q ▸ h.dist_le_number hm)

/-- The number is finite and without sign, and within `k` parts of `q`. -/
def Near (k : Nat) (x : Binary64) (q : ℚ) : Prop := ∃ m e, x = .finite false m e ∧ Within k q (scaled m e)

theorem moderate_of_nat {n : Nat} (h0 : 0 < n) (h : n ≤ 2 ^ 100) : Moderate n := by
  constructor
  · have h1 : (1 : ℚ) ≤ n := by exact_mod_cast h0
    exact le_trans (by norm_num) h1
  · exact_mod_cast h

section
variable {k l : Nat} {x y : Binary64} {p q t : ℚ}

theorem Near.mono (h : Near k x q) (hkl : k ≤ l) (hq : 0 ≤ q) : Near l x q := by
  obtain ⟨m, e, rfl, hw⟩ := h
  exact ⟨m, e, rfl, hw.mono hkl hq⟩

/-- Rounding adds five parts. -/
theorem Nearest.near (h : Nearest x t) (hq : 0 ≤ q) (hk : k ≤ 256) (ht : Within k q t) : Near (k + 5) x q := by
  obtain ⟨m, e, rfl, hm, hspan⟩ := h
  exact ⟨m, e, rfl, Within.trans hk (by norm_num) hq ht (hspan.within hm)⟩

/-! ### Operations

Each gives the number nearest to the exact result of the numbers that it is given. -/

section
variable {m m' : Nat} {e e' : Int}

theorem mul_ratio (m m' : Nat) (e e' : Int) :
    (((magnitude m e).1 * (magnitude m' e').1 : ℕ) : ℚ) / (((magnitude m e).2 * (magnitude m' e').2 : ℕ) : ℚ) =
      scaled m e * scaled m' e' := by
  rw [← magnitude_ratio, ← magnitude_ratio, Nat.cast_mul, Nat.cast_mul, mul_div_mul_comm]

theorem nearest_mul (h : InRange (scaled m e * scaled m' e')) :
    Nearest (mulMagnitude (.finite false m e) (.finite false m' e')) (scaled m e * scaled m' e') := by
  rw [← mul_ratio] at h ⊢
  exact nearest_ofRatio (Nat.mul_pos (magnitude_snd_pos m e) (magnitude_snd_pos m' e')) h

/-- From one on a product is rounded to a number that stands for it, or it is too large. -/
theorem mulMagnitude_of_one_le (h : 1 ≤ scaled m e * scaled m' e') :
    Nearest (mulMagnitude (.finite false m e) (.finite false m' e')) (scaled m e * scaled m' e') ∨
      mulMagnitude (.finite false m e) (.finite false m' e') = .infinite false := by
  rw [← mul_ratio] at h ⊢
  exact ofRatio_of_one_le false (Nat.mul_pos (magnitude_snd_pos m e) (magnitude_snd_pos m' e')) h

theorem nearest_div (h' : 0 < scaled m' e') (h : InRange (scaled m e / scaled m' e')) :
    Nearest (divMagnitude (.finite false m e) (.finite false m' e')) (scaled m e / scaled m' e') := by
  have hratio : (((magnitude m e).1 * (magnitude m' e').2 : ℕ) : ℚ) /
      (((magnitude m e).2 * (magnitude m' e').1 : ℕ) : ℚ) = scaled m e / scaled m' e' := by
    rw [← magnitude_ratio, ← magnitude_ratio, Nat.cast_mul, Nat.cast_mul, div_div_div_eq]
  have hne : (magnitude m' e').1 ≠ 0 := fun h0 => by
    rw [← magnitude_ratio, h0, Nat.cast_zero, zero_div] at h'
    exact lt_irrefl _ h'
  simp only [divMagnitude, if_neg hne]
  rw [← hratio] at h ⊢
  exact nearest_ofRatio (Nat.mul_pos (magnitude_snd_pos m e) (Nat.pos_of_ne_zero hne)) h

theorem nearest_add (h : InRange (scaled m e + scaled m' e')) :
    Nearest (addMagnitude (.finite false m e) (.finite false m' e')) (scaled m e + scaled m' e') := by
  have hd : ((magnitude m e).2 : ℚ) ≠ 0 := by exact_mod_cast (magnitude_snd_pos m e).ne'
  have hd' : ((magnitude m' e').2 : ℚ) ≠ 0 := by exact_mod_cast (magnitude_snd_pos m' e').ne'
  have hratio : (((magnitude m e).1 * (magnitude m' e').2 + (magnitude m' e').1 * (magnitude m e).2 : ℕ) : ℚ) /
      (((magnitude m e).2 * (magnitude m' e').2 : ℕ) : ℚ) = scaled m e + scaled m' e' := by
    rw [← magnitude_ratio, ← magnitude_ratio]
    push_cast
    field_simp
  rw [← hratio] at h ⊢
  exact nearest_ofRatio (Nat.mul_pos (magnitude_snd_pos m e) (magnitude_snd_pos m' e')) h

end

theorem Near.mul (hx : Near k x p) (hy : Near l y q) (hp : 0 ≤ p) (hq : 0 ≤ q) (hpq : Moderate (p * q))
    (hk : k ≤ 100) (hl : l ≤ 100) : Near (k + l + 6) (mulMagnitude x y) (p * q) := by
  obtain ⟨m, e, rfl, hx⟩ := hx
  obtain ⟨m', e', rfl, hy⟩ := hy
  have hxy := hx.mul (by omega) (by omega) hp hq hy
  exact (nearest_mul (hxy.inRange hpq (by omega))).near hpq.pos.le (by omega) hxy

theorem Near.add (hx : Near k x p) (hy : Near k y q) (hpq : Moderate (p + q)) (hk : k ≤ 100) :
    Near (k + 5) (addMagnitude x y) (p + q) := by
  obtain ⟨m, e, rfl, hx⟩ := hx
  obtain ⟨m', e', rfl, hy⟩ := hy
  have hxy := hx.add hy
  exact (nearest_add (hxy.inRange hpq (by omega))).near hpq.pos.le (by omega) hxy

/-- The quotient that is rounded is within the errors of both numbers, and one part more. -/
theorem Near.div_nearest (hx : Near k x p) (hy : Near l y q) (hp : 0 ≤ p) (hq : 0 < q) (hpq : Moderate (p / q))
    (hk : k ≤ 100) (hl : l ≤ 100) : ∃ t, Nearest (divMagnitude x y) t ∧ Within (k + l + 1) (p / q) t := by
  obtain ⟨m, e, rfl, hx⟩ := hx
  obtain ⟨m', e', rfl, hy⟩ := hy
  have hxy := hx.div (by omega) (by omega) hp hq hy
  exact ⟨_, nearest_div (hy.pos hq (by omega)) (hxy.inRange hpq (by omega)), hxy⟩

theorem Near.div (hx : Near k x p) (hy : Near l y q) (hp : 0 ≤ p) (hq : 0 < q) (hpq : Moderate (p / q))
    (hk : k ≤ 100) (hl : l ≤ 100) : Near (k + l + 6) (divMagnitude x y) (p / q) := by
  obtain ⟨t, ht, hw⟩ := hx.div_nearest hy hp hq hpq hk hl
  exact ht.near hpq.pos.le (by omega) hw

/-- The quotient of numbers without error is the nearest one. -/
theorem Near.div_exact (hx : Near 0 x p) (hy : Near 0 y q) (hq : 0 < q) (hpq : Moderate (p / q)) :
    Nearest (divMagnitude x y) (p / q) := by
  obtain ⟨m, e, rfl, hx⟩ := hx
  obtain ⟨m', e', rfl, hy⟩ := hy
  obtain rfl := hx.eq_of_zero
  obtain rfl := hy.eq_of_zero
  exact nearest_div hq ((Within.refl _).inRange hpq (by norm_num))

/-! ## Whole numbers -/

/-- A whole number is rounded once. -/
theorem nearest_ofNat {n : Nat} (h0 : 0 < n) (hle : n ≤ 2 ^ 100) : Nearest (ofNat n) n := by
  have hrange : InRange ((n : ℚ) / (1 : ℕ)) := by
    simpa using (Within.refl (n : ℚ)).inRange (moderate_of_nat h0 hle) (by norm_num)
  have hnearest := nearest_ofRatio Nat.one_pos hrange
  rwa [Nat.cast_one, div_one] at hnearest

/-- A number of at most 53 bits has itself as its number. -/
theorem near_ofNat_scaled {n : Nat} {j : Int} {i : Nat} (hn : (n : ℚ) = scaled i j) (h0 : 0 < n) (hle : n ≤ 2 ^ 100)
    (hi : i < 2 ^ 53) : Near 0 (ofNat n) n := by
  obtain ⟨m, e, heq, hm, hspan⟩ := nearest_ofNat h0 hle
  refine ⟨m, e, heq, ?_⟩
  rw [hn] at hspan ⊢
  rw [hspan.eq_of_short hm hi]
  exact Within.refl _

theorem near_ofNat_zero : Near 0 (ofNat 0) ((0 : ℕ) : ℚ) :=
  ⟨0, 0, rfl, by simpa [scaled] using Within.refl 0⟩

theorem near_ofNat_of_lt {n : Nat} (h : n < 2 ^ 53) : Near 0 (ofNat n) n := by
  rcases Nat.eq_zero_or_pos n with rfl | h0
  · exact near_ofNat_zero
  · exact near_ofNat_scaled (j := 0) (by simp [scaled]) h0 (h.le.trans (by norm_num)) h

theorem near_ofNat {n : Nat} (hle : n ≤ 2 ^ 100) : Near 5 (ofNat n) n := by
  rcases Nat.eq_zero_or_pos n with rfl | h0
  · exact near_ofNat_zero.mono (by norm_num) (by simp)
  · exact (nearest_ofNat h0 hle).near (by positivity) (by norm_num) (Within.refl (n : ℚ))

/-- The nearest integer to a ratio, halves up. -/
theorem half_up_near (n : Nat) {d : Nat} (hd : 0 < d) :
    |(((2 * n + d) / (2 * d) : ℕ) : ℚ) - n / d| ≤ 1 / 2 ∧
      ∀ r : ℕ, |(r : ℚ) - n / d| < 1 / 2 → (2 * n + d) / (2 * d) = r := by
  have hdq : (0 : ℚ) < d := by exact_mod_cast hd
  have hhalf : (n : ℚ) / d = ((2 * n + d : ℕ) : ℚ) / ((2 * d : ℕ) : ℚ) - 1 / 2 := by
    push_cast
    field_simp
    ring
  have hfloor : (((2 * n + d) / (2 * d) : ℕ) : ℚ) ≤ ((2 * n + d : ℕ) : ℚ) / ((2 * d : ℕ) : ℚ) := Nat.cast_div_le
  have hnext : ((2 * n + d : ℕ) : ℚ) / ((2 * d : ℕ) : ℚ) < ((2 * n + d) / (2 * d) : ℕ) + 1 := by
    rw [← Nat.floor_div_eq_div (K := ℚ)]
    exact Nat.lt_floor_add_one _
  rw [hhalf]
  refine ⟨abs_le.2 ⟨by linarith, by linarith⟩, fun r hr => ?_⟩
  obtain ⟨h1, h2⟩ := abs_lt.1 hr
  have hlow : (r : ℚ) < ((2 * n + d) / (2 * d) : ℕ) + 1 := by linarith
  have hhigh : (((2 * n + d) / (2 * d) : ℕ) : ℚ) < r + 1 := by linarith
  have hlow' : r < (2 * n + d) / (2 * d) + 1 := by exact_mod_cast hlow
  have hhigh' : (2 * n + d) / (2 * d) < r + 1 := by exact_mod_cast hhigh
  omega

/-- Rounding to a whole number gives a whole number that has at most double the error, and the exact
one if the error was less than a half. -/
theorem Near.roundHalfUp {n : Nat} (hx : Near k x n) :
    ∃ r : ℕ, x.roundHalfUp = ofNat r ∧ Within (2 * k) (n : ℚ) r ∧ (k * part * n < 1 / 2 → r = n) := by
  obtain ⟨m, e, rfl, hw⟩ := hx
  obtain ⟨hnear, hexact⟩ := half_up_near (magnitude m e).1 (magnitude_snd_pos m e)
  rw [magnitude_ratio] at hnear hexact
  refine ⟨_, rfl, hw.of_half hnear, fun hsmall => hexact n ?_⟩
  rw [abs_sub_comm]
  exact hw.dist_le.trans_lt hsmall

end

end Tariff.Binary64
