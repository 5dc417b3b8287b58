import Mathlib
import Tariff.Binary64.Shortest
import Tariff.Proofs.Binary64.Rounding
/-
  Tariff.Proofs.Binary64.Shortest — what the shortest digits of a number are worth.

  The digits are looked for on one decimal grid after the other, each finer by ten, from the leading
  digit of the number on. Whatever is found lies in the interval of the number (`shortest_inSpan`),
  and with 17 digits something is found.

  Which point of the interval it is the search does not ask. But if a grid has only one point in the
  interval, then the search gives that point (`shortest_eq_of_unique`), since no coarser grid has
  another one. So a number that stands for a decimal of at most 15 digits is written as that decimal
  (`shortest_eq_of_digits`), and a whole number below 2^53 as itself (`shortest_eq_of_whole`).
-/

namespace Tariff.Binary64

/-! ## Decimals -/

/-- The number `k · 10^p`. -/
def decimal (k : Nat) (p : Int) : ℚ := k * 10 ^ p

theorem ten_zpow_pos (p : Int) : (0 : ℚ) < 10 ^ p := by positivity

theorem decimal_add (k : Nat) (p : Int) (i : Nat) : decimal k (p + i) = decimal (k * 10 ^ i) p := by
  rw [decimal, decimal, zpow_add₀ (by norm_num), zpow_natCast]
  push_cast
  ring

/-- A decimal is one on every finer grid too. -/
theorem exists_decimal {p p' : Int} (h : p' ≤ p) (k : Nat) : ∃ k', decimal k p = decimal k' p' := by
  obtain ⟨i, rfl⟩ : ∃ i : ℕ, p = p' + i := ⟨(p - p').toNat, by omega⟩
  exact ⟨_, decimal_add k p' i⟩

theorem decimal_injective {p : Int} {k k' : Nat} (h : |(k : ℚ) - k'| * 10 ^ p < 10 ^ p) : k = k' := by
  have hlt : |(k : ℚ) - k'| < 1 := by
    by_contra hge
    have := mul_le_mul_of_nonneg_right (not_lt.1 hge) (ten_zpow_pos p).le
    linarith
  have hint : |((k : ℤ) - k' : ℤ)| < 1 := by exact_mod_cast hlt
  have := Int.abs_lt_one_iff.1 hint
  omega

/-- Striking zeros keeps the number. -/
theorem dropZeros_decimal (fuel k : Nat) (p : Int) :
    decimal (dropZeros fuel k p).1 (dropZeros fuel k p).2 = decimal k p := by
  induction fuel generalizing k p with
  | zero => rfl
  | succ fuel ih =>
    unfold dropZeros
    split
    · rename_i h
      rw [ih]
      obtain ⟨i, rfl⟩ : ∃ i, k = i * 10 := ⟨k / 10, by omega⟩
      rw [Nat.mul_div_cancel _ (by norm_num)]
      simpa using decimal_add i p 1
    · rfl

/-! ## The leading digit -/

theorem digitCount_bounds {n : Nat} (h : 0 < n) :
    0 < digitCount n ∧ 10 ^ (digitCount n - 1) ≤ n ∧ n < 10 ^ digitCount n := by
  have hcount : digitCount n = (Nat.toDigits 10 n).length := if_neg h.ne'
  have hpos : 0 < digitCount n := hcount ▸ Nat.length_toDigits_pos
  refine ⟨hpos, ?_, ?_⟩
  · by_contra hlt
    have hpred : 0 < digitCount n - 1 := by
      by_contra h0
      rw [show digitCount n - 1 = 0 by omega] at hlt
      omega
    have hle := (Nat.length_toDigits_le_iff (by norm_num) hpred).2 (not_le.1 hlt)
    omega
  · exact (Nat.length_toDigits_le_iff (by norm_num) hpos).1 hcount.ge

/-- The number starts at its leading digit. -/
theorem leadingExponent_bounds {n d : Nat} (hn : 0 < n) (hd : 0 < d) :
    (10 : ℚ) ^ leadingExponent n d ≤ n / d ∧ (n : ℚ) / d ≤ 10 ^ (leadingExponent n d + 1) := by
  have hnq : (0 : ℚ) < n := by exact_mod_cast hn
  have hdq : (0 : ℚ) < d := by exact_mod_cast hd
  unfold leadingExponent
  split
  · rename_i hle
    obtain ⟨hpos, hlow, hhigh⟩ := digitCount_bounds (Nat.div_pos hle hd)
    rw [Nat.le_div_iff_mul_le hd] at hlow
    rw [Nat.div_lt_iff_lt_mul hd] at hhigh
    have hpred : ((digitCount (n / d) : ℕ) : ℤ) - 1 = ((digitCount (n / d) - 1 : ℕ) : ℤ) := by omega
    rw [sub_add_cancel, hpred, zpow_natCast, zpow_natCast, le_div_iff₀ hdq, div_le_iff₀ hdq]
    exact ⟨by exact_mod_cast hlow, by exact_mod_cast hhigh.le⟩
  · rename_i hlt
    obtain ⟨hpos, hlow, hhigh⟩ := digitCount_bounds (Nat.div_pos (not_le.1 hlt).le hn)
    rw [Nat.le_div_iff_mul_le hn] at hlow
    rw [Nat.div_lt_iff_lt_mul hn] at hhigh
    have hpred : -((digitCount (d / n) : ℕ) : ℤ) + 1 = -((digitCount (d / n) - 1 : ℕ) : ℤ) := by omega
    rw [hpred, zpow_neg, zpow_neg, zpow_natCast, zpow_natCast, inv_le_comm₀ (by positivity) (by positivity), inv_div,
      le_inv_comm₀ (by positivity) (by positivity), inv_div, div_le_iff₀ hnq, le_div_iff₀ hnq]
    exact ⟨by exact_mod_cast hhigh.le, by exact_mod_cast hlow⟩

theorem leadingExponent_nonneg {n d : Nat} (hd : 0 < d) (h : d ≤ n) : 0 ≤ leadingExponent n d := by
  have hpos := (digitCount_bounds (Nat.div_pos h hd)).1
  rw [leadingExponent, if_pos h]
  omega

/-! ## The interval in integers -/

namespace Span

/-- The numerators of the interval and its number stand for these rationals. -/
structure Measures (s : Span) (low value high : ℚ) : Prop where
  pos : 0 < s.denominator
  low : (s.low : ℚ) = low * s.denominator
  value : (s.value : ℚ) = value * s.denominator
  high : (s.high : ℚ) = high * s.denominator

variable {s : Span} {low value high : ℚ}

theorem Measures.inUnits (h : s.Measures low value high) (p : Int) :
    (s.inUnits p).Measures (low / 10 ^ p) (value / 10 ^ p) (high / 10 ^ p) := by
  have htens : ∀ n : ℕ, (tenPow n : ℚ) = 10 ^ n := fun n => by simp [tenPow]
  obtain ⟨k, rfl⟩ | ⟨k, hk, rfl⟩ := exponent_cases p
  · rw [Span.inUnits, if_pos (by omega)]
    refine ⟨Nat.mul_pos h.pos (Nat.pow_pos (by norm_num)), ?_, ?_, ?_⟩ <;> push_cast <;>
      simp only [h.low, h.value, h.high, Int.toNat_natCast, htens, zpow_natCast] <;> field_simp
  · rw [Span.inUnits, if_neg (by omega)]
    refine ⟨h.pos, ?_, ?_, ?_⟩ <;> push_cast <;>
      simp only [h.low, h.value, h.high, neg_neg, Int.toNat_natCast, htens, zpow_neg, zpow_natCast] <;> field_simp

theorem closed_inUnits (s : Span) (p : Int) : (s.inUnits p).closed = s.closed := by
  unfold Span.inUnits
  split <;> rfl

/-- An integer is held if it is between the ends, and not one of them if they do not belong. -/
theorem Measures.holds_iff (h : s.Measures low value high) (k : Nat) :
    s.holds k = true ↔ low ≤ k ∧ k ≤ high ∧ (s.closed = false → low < k ∧ k < high) := by
  have hden : (0 : ℚ) < s.denominator := by exact_mod_cast h.pos
  have hlow : s.low ≤ k * s.denominator ↔ low ≤ k := by
    rw [← Nat.cast_le (α := ℚ), h.low, Nat.cast_mul, mul_le_mul_iff_left₀ hden]
  have hhigh : k * s.denominator ≤ s.high ↔ k ≤ high := by
    rw [← Nat.cast_le (α := ℚ), h.high, Nat.cast_mul, mul_le_mul_iff_left₀ hden]
  have hlow' : s.low < k * s.denominator ↔ low < k := by
    rw [← Nat.cast_lt (α := ℚ), h.low, Nat.cast_mul, mul_lt_mul_iff_left₀ hden]
  have hhigh' : k * s.denominator < s.high ↔ k < high := by
    rw [← Nat.cast_lt (α := ℚ), h.high, Nat.cast_mul, mul_lt_mul_iff_left₀ hden]
  cases hc : s.closed
  · simp only [holds, hc, Bool.false_eq_true, if_false, Bool.and_eq_true, decide_eq_true_eq, hlow', hhigh',
      true_imp_iff]
    exact ⟨fun hx => ⟨hx.1.le, hx.2.le, hx⟩, fun hx => hx.2.2⟩
  · simp [holds, hc, hlow, hhigh]

/-- Of the neighbours of the number one that is held is picked. -/
theorem holds_of_pick? {k : Nat} (h : s.pick? = some k) : s.holds k = true := by
  unfold pick? at h
  dsimp only at h
  rcases Nat.mod_two_eq_zero_or_one (s.value / s.denominator) with hpar | hpar <;>
    cases h1 : s.holds (s.value / s.denominator) <;> cases h2 : s.holds (s.value / s.denominator + 1) <;>
    simp only [h1, h2, hpar] at h <;> grind

/-- If one of the neighbours is held, one is picked. -/
theorem pick?_isSome (h : s.holds (s.value / s.denominator) = true ∨ s.holds (s.value / s.denominator + 1) = true) :
    s.pick?.isSome = true := by
  unfold pick?
  dsimp only
  cases h1 : s.holds (s.value / s.denominator) <;> cases h2 : s.holds (s.value / s.denominator + 1) <;>
    simp only [h1, h2] at h ⊢ <;> grind

end Span

/-- The interval of a number in integers. -/
theorem span_measures {m : Nat} {e : Int} (hm : Normal m e) :
    (span m e).Measures ((m - reachBelow m) * 2 ^ e) (scaled m e) ((m + 1 / 2) * 2 ^ e) := by
  have hlower : (((if m = normalBound ∧ minExponent < e then 4 * m - 1 else 4 * m - 2 : ℕ)) : ℚ) =
      4 * (m - reachBelow m) := by
    have hm1 := hm.le_mantissa
    rw [reachBelow]
    by_cases hb : m = normalBound
    · rw [if_pos ⟨hb, hm.lt_exponent⟩, if_pos hb, Nat.cast_sub (by omega)]
      push_cast
      ring
    · rw [if_neg (fun h => hb h.1), if_neg hb, Nat.cast_sub (by omega)]
      push_cast
      ring
  have hquarter : (2 : ℚ) ^ e = 4 * 2 ^ (e - 2) := by
    rw [zpow_sub₀ two_ne_zero]
    field_simp
    norm_num
  unfold span
  dsimp only
  generalize (if m = normalBound ∧ minExponent < e then 4 * m - 1 else 4 * m - 2 : ℕ) = lower at hlower ⊢
  obtain ⟨k, hk⟩ | ⟨k, hk0, hk⟩ := exponent_cases (e - 2)
  · rw [hk, zpow_natCast] at hquarter
    rw [hk, if_pos (Int.natCast_nonneg k), Int.toNat_natCast]
    refine ⟨Nat.one_pos, ?_, ?_, ?_⟩ <;> push_cast <;>
      simp only [hlower, twoPow_cast, scaled, hquarter] <;> ring
  · rw [hk, zpow_neg, zpow_natCast] at hquarter
    rw [hk, if_neg (by omega), neg_neg, Int.toNat_natCast]
    refine ⟨twoPow_pos k, ?_, ?_, ?_⟩ <;> push_cast <;> simp only [hlower, twoPow_cast, scaled, hquarter]
    · field_simp
    · field_simp
    · field_simp
      ring

theorem closed_span (m : Nat) (e : Int) : (span m e).closed = (m % 2 == 0) := by
  unfold span
  dsimp only
  split <;> rfl

/-- What is held are the decimals that lie in the interval. -/
theorem holds_inUnits_iff {m : Nat} {e : Int} (hm : Normal m e) (p : Int) (k : Nat) :
    ((span m e).inUnits p).holds k = true ↔ InSpan m e (decimal k p) := by
  have hp := ten_zpow_pos p
  rw [((span_measures hm).inUnits p).holds_iff, Span.closed_inUnits, closed_span, div_le_iff₀ hp, le_div_iff₀ hp,
    div_lt_iff₀ hp, lt_div_iff₀ hp]
  have hodd : (m % 2 == 0) = false ↔ m % 2 = 1 := by
    rw [beq_eq_false_iff_ne]
    omega
  rw [hodd]
  exact ⟨fun h => ⟨h.1, h.2.1, h.2.2⟩, fun h => ⟨h.low, h.high, h.odd⟩⟩

/-! ## The interval -/

section
variable {m : Nat} {e : Int} {a b x : ℚ}

/-- What is closer to the number than its interval reaches below it lies in the interval. -/
theorem InSpan.of_dist (h : |x - scaled m e| < reachBelow m * 2 ^ e) : InSpan m e x := by
  obtain ⟨h1, h2⟩ := abs_lt.1 h
  have hreach := mul_le_mul_of_nonneg_right (reachBelow_le m).2 (by positivity : (0 : ℚ) ≤ 2 ^ e)
  have hlow : (m - reachBelow m) * 2 ^ e < x := by
    rw [sub_mul]
    rw [scaled] at h1
    linarith
  have hhigh : x < (m + 1 / 2) * 2 ^ e := by
    rw [add_mul]
    rw [scaled] at h2
    linarith
  exact ⟨hlow.le, hhigh.le, fun _ => ⟨hlow, hhigh⟩⟩

theorem inSpan_self (m : Nat) (e : Int) : InSpan m e (scaled m e) := by
  apply InSpan.of_dist
  have := (reachBelow_le m).1
  rw [sub_self, abs_zero]
  positivity

/-- An interval has no gaps. -/
theorem InSpan.between (ha : InSpan m e a) (hb : InSpan m e b) (hax : a ≤ x) (hxb : x ≤ b) : InSpan m e x :=
  ⟨ha.low.trans hax, hxb.trans hb.high, fun h => ⟨(ha.odd h).1.trans_le hax, hxb.trans_lt (hb.odd h).2⟩⟩

/-- A unit is at most one part in 2^52 of the number. -/
theorem Normal.unit_le (hm : Normal m e) : 2 ^ e ≤ scaled m e / 2 ^ 52 := by
  have hmq : (2 : ℚ) ^ 52 ≤ m := by exact_mod_cast hm.le_mantissa
  rw [scaled, le_div_iff₀ (by positivity), mul_comm]
  exact mul_le_mul_of_nonneg_right hmq (by positivity)

/-- What lies in one interval differs by at most a unit. -/
theorem InSpan.dist_le_unit (ha : InSpan m e a) (hb : InSpan m e b) : |a - b| ≤ 2 ^ e := by
  have h1 := ha.low
  have h2 := ha.high
  have h3 := hb.low
  have h4 := hb.high
  have hreach := mul_le_mul_of_nonneg_right (reachBelow_le m).2 (by positivity : (0 : ℚ) ≤ 2 ^ e)
  rw [sub_mul] at h1 h3
  rw [add_mul] at h2 h4
  exact abs_le.2 ⟨by linarith, by linarith⟩

end

/-! ## The search -/

section
variable {m : Nat} {e : Int}

/-- The exponent of the leading digit of a number. -/
def lead (m : Nat) (e : Int) : Int := leadingExponent (span m e).value (span m e).denominator

theorem span_ratio (hm : Normal m e) : ((span m e).value : ℚ) / (span m e).denominator = scaled m e := by
  have h := span_measures hm
  have hden : (0 : ℚ) < (span m e).denominator := by exact_mod_cast h.pos
  rw [h.value, mul_div_cancel_right₀ _ hden.ne']

theorem span_value_pos (hm : Normal m e) : 0 < (span m e).value := by
  have h := span_measures hm
  have hden : (0 : ℚ) < (span m e).denominator := by exact_mod_cast h.pos
  have : (0 : ℚ) < (span m e).value := h.value ▸ mul_pos hm.pos hden
  exact_mod_cast this

theorem lead_bounds (hm : Normal m e) : 10 ^ lead m e ≤ scaled m e ∧ scaled m e ≤ 10 ^ (lead m e + 1) := by
  rw [← span_ratio hm]
  exact leadingExponent_bounds (span_value_pos hm) (span_measures hm).pos

theorem lead_nonneg (hm : Normal m e) (h : 1 ≤ scaled m e) : 0 ≤ lead m e := by
  have hden : (0 : ℚ) < (span m e).denominator := by exact_mod_cast (span_measures hm).pos
  rw [← span_ratio hm, le_div_iff₀ hden, one_mul] at h
  exact leadingExponent_nonneg (span_measures hm).pos (by exact_mod_cast h)

/-- What is found lies in the interval. -/
theorem inSpan_of_digitsAt? (hm : Normal m e) {n : Nat} {found : Nat × Int} (h : digitsAt? m e n = some found) :
    ∃ k, decimal found.1 found.2 = decimal k (lead m e - n) ∧ InSpan m e (decimal found.1 found.2) := by
  obtain ⟨k, hk, rfl⟩ := Option.map_eq_some_iff.1 h
  have hspan := (holds_inUnits_iff hm _ k).1 (Span.holds_of_pick? hk)
  rw [dropZeros_decimal]
  exact ⟨k, rfl, hspan⟩

/-- The two neighbours of a number on a decimal grid. -/
theorem neighbours (hm : Normal m e) (p : Int) :
    let s := (span m e).inUnits p
    decimal (s.value / s.denominator) p ≤ scaled m e ∧ scaled m e < decimal (s.value / s.denominator + 1) p := by
  intro s
  have h := (span_measures hm).inUnits p
  have hden : (0 : ℚ) < s.denominator := by exact_mod_cast h.pos
  have hratio : scaled m e / 10 ^ p = (s.value : ℚ) / s.denominator := by
    rw [h.value, mul_div_cancel_right₀ _ hden.ne']
  have hp := ten_zpow_pos p
  rw [decimal, decimal, ← le_div_iff₀ hp, ← div_lt_iff₀ hp, hratio]
  constructor
  · exact Nat.cast_div_le
  · rw [← Nat.floor_div_eq_div (K := ℚ)]
    push_cast
    exact Nat.lt_floor_add_one _

theorem digitsAt?_isSome (hm : Normal m e) {n : Nat} (h : ∃ k, InSpan m e (decimal k (lead m e - n))) :
    (digitsAt? m e n).isSome = true := by
  obtain ⟨k, hk⟩ := h
  set p := lead m e - n with hp
  obtain ⟨hbelow, habove⟩ := neighbours hm p
  have hheld : (digitsAt? m e n).isSome = ((span m e).inUnits p).pick?.isSome := Option.isSome_map
  rw [hheld]
  apply Span.pick?_isSome
  rw [holds_inUnits_iff hm, holds_inUnits_iff hm]
  set i := ((span m e).inUnits p).value / ((span m e).inUnits p).denominator
  have hmono : ∀ {a b : ℕ}, a ≤ b → decimal a p ≤ decimal b p := fun {a b} hab =>
    mul_le_mul_of_nonneg_right (by exact_mod_cast hab) (ten_zpow_pos p).le
  -- a point below the number is not above the neighbour below, and so on the other side
  rcases Nat.lt_or_ge i k with hlt | hle
  · exact .inr ((inSpan_self m e).between hk habove.le (hmono hlt))
  · exact .inl (hk.between (inSpan_self m e) (hmono hle) hbelow)

/-- A part in 10^16 of the number is less than twice what its interval reaches. -/
theorem lt_reach (hm : Normal m e) : scaled m e / 10 ^ 16 / 2 < reachBelow m * 2 ^ e := by
  have hpow : (0 : ℚ) < 2 ^ e := by positivity
  rw [scaled, mul_div_right_comm, mul_div_right_comm]
  refine mul_lt_mul_of_pos_right ?_ hpow
  rw [reachBelow]
  split
  · rename_i hb
    rw [hb, show normalBound = 2 ^ 52 from rfl]
    norm_num
  · have hmq : (m : ℚ) < 2 ^ 53 := by exact_mod_cast hm.mantissa_lt
    rw [div_div, div_lt_iff₀ (by norm_num)]
    refine hmq.trans ?_
    norm_num

/-- On a grid that fine the nearer neighbour lies in the interval. -/
theorem exists_inSpan (hm : Normal m e) {p : Int} (hp : 10 ^ p ≤ scaled m e / 10 ^ 16) :
    ∃ k, InSpan m e (decimal k p) := by
  obtain ⟨hbelow, habove⟩ := neighbours hm p
  have hreach := lt_reach hm
  set i := ((span m e).inUnits p).value / ((span m e).inUnits p).denominator
  have hsum : decimal (i + 1) p = decimal i p + 10 ^ p := by
    rw [decimal, decimal]
    push_cast
    ring
  rcases le_or_gt (scaled m e - decimal i p) (10 ^ p / 2) with hnear | hfar
  · refine ⟨i, InSpan.of_dist ?_⟩
    rw [abs_sub_comm, abs_of_nonneg (by linarith)]
    linarith
  · refine ⟨i + 1, InSpan.of_dist ?_⟩
    rw [abs_of_pos (by linarith)]
    linarith

/-- 17 digits are enough. -/
theorem digitsAt?_sixteen (hm : Normal m e) : (digitsAt? m e 16).isSome = true := by
  refine digitsAt?_isSome hm (exists_inSpan hm ?_)
  rw [zpow_sub₀ (by norm_num), zpow_natCast]
  exact div_le_div_of_nonneg_right (lead_bounds hm).1 (by positivity)

/-- The search ends with what the first grid gives that gives anything. -/
theorem exists_digitsAt? (hm : Normal m e) : ∃ n ≤ 16, digitsAt? m e n = some (shortest m e) ∧
    ∀ i, (digitsAt? m e i).isSome = true → i ≤ 16 → n ≤ i := by
  have hsixteen := digitsAt?_sixteen hm
  unfold shortest
  cases hfound : (List.range 17).findSome? (digitsAt? m e) with
  | none =>
    rw [List.findSome?_eq_none_iff.1 hfound 16 (by simp)] at hsixteen
    cases hsixteen
  | some found =>
    obtain ⟨before, n, after, hrange, hn, hnone⟩ := List.findSome?_eq_some_iff.1 hfound
    have hget : ∀ i (hi : i < 17), (List.range 17)[i]? = some i := fun i hi => by simp [hi]
    have hlen : before.length < 17 := by
      have := congrArg List.length hrange
      simp at this
      omega
    have hindex : before.length = n := by
      have := hget _ hlen
      rw [hrange, List.getElem?_append_right le_rfl, Nat.sub_self] at this
      simpa using this.symm
    refine ⟨n, by omega, hn, fun i hi hle => ?_⟩
    by_contra hlt
    have hmem : i ∈ before := by
      have := hget i (by omega)
      rw [hrange, List.getElem?_append_left (by omega)] at this
      exact List.mem_of_getElem? this
    rw [hnone i hmem] at hi
    cases hi

/-- The shortest digits lie in the interval of the number. -/
theorem shortest_inSpan (hm : Normal m e) : InSpan m e (decimal (shortest m e).1 (shortest m e).2) := by
  obtain ⟨n, -, hn, -⟩ := exists_digitsAt? hm
  obtain ⟨-, -, hspan⟩ := inSpan_of_digitsAt? hm hn
  exact hspan

/-- If a grid has one point in the interval and no other, that is what the shortest digits are. -/
theorem shortest_eq_of_unique (hm : Normal m e) {j : Int} {k : Nat} (hj : j ≤ lead m e) (hj' : lead m e ≤ j + 16)
    (hk : InSpan m e (decimal k j)) (hunique : ∀ i, InSpan m e (decimal i j) → decimal i j = decimal k j) :
    decimal (shortest m e).1 (shortest m e).2 = decimal k j := by
  obtain ⟨n, -, hn, hfirst⟩ := exists_digitsAt? hm
  obtain ⟨i, hi, hspan⟩ := inSpan_of_digitsAt? hm hn
  obtain ⟨N, hN⟩ : ∃ N : ℕ, lead m e - N = j := ⟨(lead m e - j).toNat, by omega⟩
  have hnN : n ≤ N := hfirst N (digitsAt?_isSome hm ⟨k, by rw [hN]; exact hk⟩) (by omega)
  have hfiner : j ≤ lead m e - n := by omega
  obtain ⟨i', hi'⟩ := exists_decimal hfiner i
  rw [hi, hi'] at hspan ⊢
  exact hunique i' hspan

/-- On a finer grid than that of 15 digits a decimal of 15 digits is less than the leading digit. -/
theorem lead_le_of_digits (hm : Normal m e) {j : Int} {k : Nat} (hk : k < 10 ^ 15) (h : InSpan m e (decimal k j)) :
    lead m e - 14 ≤ j := by
  by_contra hlt
  obtain ⟨i, hi⟩ : ∃ i : ℕ, lead m e = j + i := ⟨(lead m e - j).toNat, by omega⟩
  have hpow : (10 : ℚ) ^ lead m e = decimal (10 ^ i) j := by
    rw [hi, decimal, zpow_add₀ (by norm_num), zpow_natCast]
    push_cast
    ring
  have hk' : k + 1 ≤ 10 ^ i := hk.trans_le (Nat.pow_le_pow_right (by norm_num) (by omega))
  have hstep : decimal k j + 10 ^ j ≤ scaled m e := by
    refine le_trans ?_ (hpow ▸ (lead_bounds hm).1)
    rw [decimal, decimal, ← add_one_mul]
    exact mul_le_mul_of_nonneg_right (by exact_mod_cast hk') (ten_zpow_pos j).le
  have hdecimal : decimal k j < 10 ^ 15 * 10 ^ j :=
    mul_lt_mul_of_pos_right (by exact_mod_cast hk) (ten_zpow_pos j)
  have hdist := (abs_le.1 h.dist_le).2
  have hunit := hm.unit_le
  have hj0 := ten_zpow_pos j
  norm_num at hunit hdecimal
  linarith

/-- The grid of 15 digits is coarser than the interval is wide. -/
theorem unit_lt_grid (hm : Normal m e) : 2 ^ e < (10 : ℚ) ^ (lead m e - 14) := by
  have hpow : (10 : ℚ) ^ (lead m e + 1) = 10 ^ 15 * 10 ^ (lead m e - 14) := by
    rw [← zpow_natCast, ← zpow_add₀ (by norm_num)]
    congr 1
    push_cast
    ring
  have hhigh := (lead_bounds hm).2
  have hpos := ten_zpow_pos (lead m e - 14)
  rw [hpow] at hhigh
  refine hm.unit_le.trans_lt ?_
  rw [div_lt_iff₀ (by positivity)]
  norm_num at hhigh ⊢
  linarith

/-- A number that stands for a decimal of at most 15 digits is written as it. -/
theorem shortest_eq_of_digits (hm : Normal m e) {j : Int} {k : Nat} (hk : k < 10 ^ 15)
    (h : InSpan m e (decimal k j)) : decimal (shortest m e).1 (shortest m e).2 = decimal k j := by
  obtain ⟨k', hk'⟩ := exists_decimal (lead_le_of_digits hm hk h) k
  rw [hk'] at h ⊢
  refine shortest_eq_of_unique hm (by omega) (by omega) h fun i hi => ?_
  have hdist := hi.dist_le_unit h
  rw [decimal, decimal, ← sub_mul, abs_mul, abs_of_pos (ten_zpow_pos _)] at hdist
  rw [decimal_injective (hdist.trans_lt (unit_lt_grid hm))]

/-- A whole number below 2^53 is written as itself. -/
theorem shortest_eq_of_whole (hm : Normal m e) {n : Nat} (hn : n < 2 ^ 53) (h : scaled m e = n) :
    decimal (shortest m e).1 (shortest m e).2 = n := by
  obtain ⟨hlow, -⟩ := lead_bounds hm
  have hunit := hm.unit_le
  have hnq : (n : ℚ) < 2 ^ 53 := by exact_mod_cast hn
  have hn0 : 1 ≤ n := by
    have : (0 : ℚ) < n := h ▸ hm.pos
    exact_mod_cast this
  have hself : decimal n 0 = n := by simp [decimal]
  have hlead : lead m e < 16 := by
    have : (10 : ℚ) ^ lead m e < 10 ^ (16 : ℤ) := by
      refine hlow.trans_lt (h ▸ hnq.trans ?_)
      norm_num
    exact (zpow_lt_zpow_iff_right₀ (by norm_num)).1 this
  rw [← hself]
  refine shortest_eq_of_unique hm (lead_nonneg hm (by rw [h]; exact_mod_cast hn0)) (by omega)
    (hself.symm ▸ h ▸ inSpan_self m e) fun i hi => ?_
  have hle : (2 : ℚ) ^ e < 2 := by
    refine hunit.trans_lt ?_
    rw [h, div_lt_iff₀ (by positivity)]
    norm_num at hnq ⊢
    linarith
  have he : e < 1 := (zpow_lt_zpow_iff_right₀ one_lt_two).1 (by simpa using hle)
  have hone : (2 : ℚ) ^ e ≤ 2 ^ (0 : ℤ) := zpow_le_zpow_right₀ (by norm_num) (by omega)
  have hdist := hi.dist_le
  have heq : i = n := by
    apply decimal_injective (p := 0)
    rw [h, abs_sub_comm] at hdist
    simp only [decimal, zpow_zero, mul_one] at hdist hone ⊢
    linarith
  rw [heq]

end

end Tariff.Binary64
