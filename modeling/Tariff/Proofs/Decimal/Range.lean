import Mathlib
import Tariff.Proofs.Decimal.Printed
/-
  Tariff.Proofs.Decimal.Range — which numerals are read.

  Digits before the point must fit. After the point a digit that does not fit is rounded away, and
  that fails in one place only: the digits before the point are the last number that fits, and the
  first digit behind it rounds up (`foldlM_fraction_isSome_iff`). So a numeral is read exactly if it is
  less than 2^96 by more than a half (`isSome_readChars?_iff`).
-/

namespace Tariff

namespace Decimal

namespace Reading

/-! ## Digits after the point -/

theorem settle?_isSome_iff (r : Reading) (digit : Nat) :
    (r.settle? digit).isSome = true ↔ r.scale = 0 → digit < 5 ∨ r.mantissa + 1 < capacity := by
  unfold settle? roundUp?
  split
  · rename_i h5
    split
    · rename_i hfit
      simp [hfit]
    · rename_i hfull
      by_cases hscale : r.scale = 0 <;> simp [hscale, hfull, h5]
  · rename_i h5
    simp [not_le.1 h5]

/-- Behind the first place digits are always read: if one does not fit, there is a place to give up. -/
theorem foldlM_isSome_of_scale {cs : List Char} (hcs : ∀ c ∈ cs, c.isDigit = true) {r : Reading}
    (hp : r.pointed = true) (hscale : r.scale ≠ 0) : (cs.foldlM step? r).isSome = true := by
  induction cs generalizing r with
  | nil => rfl
  | cons c cs ih =>
    have hrest : ∀ d ∈ cs, d.isDigit = true := fun d hd => hcs d (List.mem_cons_of_mem c hd)
    rw [List.foldlM_cons, step?_digit r (hcs c List.mem_cons_self)]
    by_cases hs : r.settled = true
    · simpa [digit?, hs] using ih hrest hp hscale
    · by_cases hroom : r.Room (c.toNat - 48)
      · unfold Room at hroom
        simpa [digit?, hs, hp, hroom] using ih hrest rfl (Nat.succ_ne_zero r.scale)
      · obtain ⟨u, hu⟩ := Option.isSome_iff_exists.1
          ((settle?_isSome_iff r (c.toNat - 48)).2 fun hzero => absurd hzero hscale)
        have hstep : r.digit? (c.toNat - 48) = some u := by
          unfold Room at hroom
          rw [← hu]
          simp [digit?, hs, hp, hroom]
        rw [hstep]
        simp [foldlM_settled hrest (settle?_flags hu).1]

/-- Digits after the point are read unless the first of them rounds the largest whole number up. -/
theorem foldlM_fraction_isSome_iff {cs : List Char} (hcs : ∀ c ∈ cs, c.isDigit = true) {r : Reading}
    (hp : r.pointed = true) (hs : r.settled = false) (hscale : r.scale = 0) :
    (cs.foldlM step? r).isSome = true ↔ ∀ c ∈ cs.head?, c.toNat - 48 < 5 ∨ r.mantissa + 1 < capacity := by
  cases cs with
  | nil => simp
  | cons c cs =>
    have hrest : ∀ d ∈ cs, d.isDigit = true := fun d hd => hcs d (List.mem_cons_of_mem c hd)
    rw [List.foldlM_cons, step?_digit r (hcs c List.mem_cons_self)]
    by_cases hfit : r.mantissa * 10 + (c.toNat - 48) < capacity
    · have hread := foldlM_isSome_of_scale hrest
        (r := { r with mantissa := r.mantissa * 10 + (c.toNat - 48), scale := r.scale + 1, started := true })
        hp (Nat.succ_ne_zero _)
      have hnext : c.toNat - 48 < 5 ∨ r.mantissa + 1 < capacity := by
        have : 10 < capacity := by decide
        omega
      simpa [digit?, hs, hp, hscale, hfit, maxScale, hnext] using hread
    · have hstep : r.digit? (c.toNat - 48) = r.settle? (c.toNat - 48) := by
        simp [digit?, hs, hp, hfit]
      rw [hstep]
      simp only [List.head?_cons, Option.mem_some_iff, forall_eq']
      rw [← (settle?_isSome_iff r (c.toNat - 48)).trans ⟨fun h => h hscale, fun h _ => h⟩]
      cases hu : r.settle? (c.toNat - 48) with
      | none => rfl
      | some u => simp [foldlM_settled hrest (settle?_flags hu).1]

/-! ## What a reading keeps -/

/-- A reading holds an amount, and before the first digit it holds nothing. -/
structure Sound (r : Reading) : Prop where
  mantissa_lt : r.mantissa < capacity
  scale_le : r.scale ≤ maxScale
  fresh : r.started = false → r.mantissa = 0 ∧ r.scale = 0 ∧ r.settled = false

theorem sound_empty : empty.Sound := ⟨by decide, by decide, fun _ => ⟨rfl, rfl, rfl⟩⟩

theorem Sound.settle? {r r' : Reading} {digit : Nat} (h : r.Sound) (hstarted : r.started = true)
    (hr : r.settle? digit = some r') : r'.Sound ∧ r'.started = true := by
  have hlt := h.mantissa_lt
  have hle := h.scale_le
  unfold Reading.settle? roundUp? at hr
  split at hr
  · split at hr
    · rename_i hfit
      cases hr
      exact ⟨⟨hfit, hle, by simp [hstarted]⟩, hstarted⟩
    · split at hr
      · cases hr
      · cases hr
        have hten : (r.mantissa + 5) / 10 < capacity := by
          have : 10 < capacity := by decide
          omega
        exact ⟨⟨hten, show r.scale - 1 ≤ maxScale by omega, by simp [hstarted]⟩, hstarted⟩
  · cases hr
    exact ⟨⟨hlt, hle, by simp [hstarted]⟩, hstarted⟩

/-- A digit that is read starts the number. -/
theorem Sound.digit? {r r' : Reading} {digit : Nat} (h : r.Sound) (hdigit : digit ≤ 9)
    (hr : r.digit? digit = some r') : r'.Sound ∧ r'.started = true := by
  by_cases hs : r.settled = true
  · have hstarted : r.started = true := by
      by_contra hnot
      simpa [hs] using (h.fresh (by simpa using hnot)).2.2
    simp only [Reading.digit?, hs, if_true, Option.some.injEq] at hr
    subst hr
    exact ⟨h, hstarted⟩
  · by_cases hp : r.pointed = true
    · simp only [Reading.digit?, hs, hp, Bool.false_eq_true, if_false, if_true] at hr
      split at hr
      · rename_i hroom
        cases hr
        exact ⟨⟨hroom.2, hroom.1, by simp⟩, rfl⟩
      · rename_i hroom
        -- the first digit has room
        have hstarted : r.started = true := by
          by_contra hnot
          obtain ⟨hm, hscale, -⟩ := h.fresh (by simpa using hnot)
          refine hroom ⟨by rw [hscale]; decide, ?_⟩
          have : 10 < capacity := by decide
          omega
        exact h.settle? hstarted hr
    · simp only [Reading.digit?, hs, hp, Bool.false_eq_true, if_false] at hr
      split at hr
      · rename_i hfit
        cases hr
        exact ⟨⟨hfit, h.scale_le, by simp⟩, rfl⟩
      · cases hr

theorem Sound.step? {r r' : Reading} {c : Char} (h : r.Sound) (hr : r.step? c = some r') :
    r'.Sound ∧ (r.started = true ∨ c.isDigit = true → r'.started = true) := by
  by_cases hdigit : c.isDigit = true
  · rw [step?_digit r hdigit] at hr
    obtain ⟨hsound, hstarted⟩ := h.digit? (digit_le hdigit) hr
    exact ⟨hsound, fun _ => hstarted⟩
  · rcases step?_cases hr with ⟨hx, -⟩ | ⟨-, -, rfl⟩ | ⟨-, rfl⟩
    · exact absurd hx hdigit
    · exact ⟨⟨h.mantissa_lt, h.scale_le, h.fresh⟩, by simp [hdigit]⟩
    · exact ⟨h, by simp [hdigit]⟩

theorem Sound.foldlM {cs : List Char} {r r' : Reading} (h : r.Sound) (hr : cs.foldlM Reading.step? r = some r') :
    r'.Sound ∧ (r.started = true ∨ (∃ c ∈ cs, c.isDigit = true) → r'.started = true) := by
  induction cs generalizing r with
  | nil =>
    cases hr
    exact ⟨h, by simp⟩
  | cons c cs ih =>
    obtain ⟨u, hu, hr⟩ := Option.bind_eq_some_iff.1 (by rwa [List.foldlM_cons] at hr)
    obtain ⟨hsound, hstep⟩ := h.step? hu
    obtain ⟨hsound', hrest⟩ := ih hsound hr
    refine ⟨hsound', fun hx => hrest ?_⟩
    rcases hx with hx | ⟨d, hd, hdigit⟩
    · exact .inl (hstep (.inl hx))
    · rcases List.mem_cons.1 hd with rfl | hd
      · exact .inl (hstep (.inr hdigit))
      · exact .inr ⟨d, hd, hdigit⟩

end Reading

/-! ## The whole numeral -/

/-- A numeral is read if its characters are. -/
theorem isSome_readChars?_iff_foldlM (n : Numeral) : (readChars? n.text).isSome = true ↔
    ((n.whole ++ n.fraction.elim [] ('.' :: ·)).foldlM Reading.step? Reading.empty).isSome = true := by
  rw [readChars?, splitSign_text]
  dsimp only
  cases hr : (n.whole ++ n.fraction.elim [] ('.' :: ·)).foldlM Reading.step? Reading.empty with
  | none => simp
  | some r =>
    obtain ⟨hsound, hstarted⟩ := Reading.sound_empty.foldlM hr
    have hdigit : ∃ c ∈ n.whole ++ n.fraction.elim [] ('.' :: ·), c.isDigit = true := by
      obtain ⟨c, hc⟩ := List.exists_mem_of_ne_nil _ n.ne_nil
      refine ⟨c, ?_, n.isDigit c hc⟩
      cases hfraction : n.fraction with
      | none => simpa [hfraction] using hc
      | some fs =>
        rcases List.mem_append.1 hc with hc | hc
        · simp [hc]
        · simp [show c ∈ fs by simpa [hfraction] using hc]
    have hparts := hsound.mantissa_lt
    unfold capacity at hparts
    simp [hstarted (.inr hdigit), ofParts?, hparts, show r.scale ≤ 28 from hsound.scale_le]

/-- A number stays below the capacity by more than a half if its whole part does, and the first digit
behind the largest whole number does not round it up. -/
theorem lt_capacity_iff {fs : List Char} (hfs : ∀ c ∈ fs, c.isDigit = true) (m : Nat) :
    (m + digitsAfter 0 fs / 10 ^ fs.length : ℚ) < capacity - 1 / 2 ↔
      m < capacity ∧ ∀ c ∈ fs.head?, c.toNat - 48 < 5 ∨ m + 1 < capacity := by
  have hcast : ∀ k : Nat, k < capacity ↔ (k : ℚ) + 1 ≤ capacity := fun k => by
    rw [Nat.lt_iff_add_one_le]
    exact_mod_cast Iff.rfl
  cases fs with
  | nil =>
    simp only [digitsAfter_nil, List.head?_nil, Option.not_mem_none, false_imp_iff, implies_true, and_true]
    constructor
    · intro h
      have : (m : ℚ) < capacity := by norm_num at h; linarith
      exact_mod_cast this
    · intro h
      have := (hcast m).1 h
      norm_num
      linarith
  | cons c cs =>
    obtain ⟨hlow, hhigh, hone⟩ := Reading.tail_bounds (hfs c List.mem_cons_self)
      fun d hd => hfs d (List.mem_cons_of_mem c hd)
    simp only [List.length_cons, List.head?_cons, Option.mem_some_iff, forall_eq']
    have hnonneg : (0 : ℚ) ≤ (c.toNat - 48 : Nat) := Nat.cast_nonneg _
    constructor
    · intro h
      have hm : (m : ℚ) < capacity := by linarith
      refine ⟨by exact_mod_cast hm, ?_⟩
      by_cases h5 : c.toNat - 48 < 5
      · exact .inl h5
      · have hfive : (5 : ℚ) ≤ (c.toNat - 48 : Nat) := by exact_mod_cast not_lt.1 h5
        have hnext : (m + 1 : ℚ) < capacity := by linarith
        exact .inr (by exact_mod_cast hnext)
    · intro h
      obtain ⟨hm, hround⟩ := h
      have hm' := (hcast m).1 hm
      rcases hround with h4 | hnext
      · have hfour : ((c.toNat - 48 : Nat) : ℚ) ≤ 4 := by exact_mod_cast Nat.lt_succ_iff.1 h4
        linarith
      · have hnext' := (hcast (m + 1)).1 hnext
        push_cast at hnext'
        linarith

/-- A numeral is read exactly if it is less than 2^96 by more than a half. -/
theorem isSome_readChars?_iff (n : Numeral) :
    (readChars? n.text).isSome = true ↔ n.magnitude < capacity - 1 / 2 := by
  have hwhole : ∀ c ∈ n.whole, c.isDigit = true := fun c hc => n.isDigit c (List.mem_append_left _ hc)
  have hplaces : ∀ c ∈ n.places, c.isDigit = true := fun c hc => n.isDigit c (List.mem_append_right _ hc)
  have hmagnitude : n.magnitude = digitsAfter 0 n.whole + digitsAfter 0 n.places / 10 ^ n.places.length := by
    rw [Numeral.magnitude, digitsAfter_append, digitsAfter_eq]
    push_cast
    field_simp
  rw [isSome_readChars?_iff_foldlM, hmagnitude, lt_capacity_iff hplaces, List.foldlM_append]
  by_cases hfit : digitsAfter 0 n.whole < capacity
  · have hread := Reading.foldlM_fits hwhole (r := Reading.empty) rfl hfit (by simp [Reading.empty])
    rw [hread]
    simp only [Option.bind_eq_bind, Option.bind_some, hfit, true_and]
    cases hfraction : n.fraction with
    | none => simp [Numeral.places, hfraction]
    | some fs =>
      obtain rfl : n.places = fs := by simp [Numeral.places, hfraction]
      simp only [Option.elim_some, List.foldlM_cons, Reading.step?_point]
      exact Reading.foldlM_fraction_isSome_iff hplaces rfl rfl rfl
  · have hnone : n.whole.foldlM Reading.step? Reading.empty = none := by
      rw [Option.eq_none_iff_forall_ne_some]
      intro r hr
      obtain ⟨hm, -, -, -, hlt⟩ := Reading.foldlM_whole hwhole rfl rfl (by decide) hr
      exact hfit (hm ▸ hlt)
    simp [hnone, hfit]

end Decimal

end Tariff
