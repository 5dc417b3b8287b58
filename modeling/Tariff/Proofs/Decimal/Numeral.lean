import Mathlib
import Tariff.Decimal.Reader
import Tariff.Proofs.Decimal.Digits
import Tariff.Proofs.Decimal.Value
/-
  Tariff.Proofs.Decimal.Numeral — what a number in digits says, and what the reader makes of it.

  A numeral is a sign, digits, and digits after a point; its value is a rational number, however many
  digits it has. An amount holds only some of these numbers. The reader takes digits while they fit,
  and the first digit after the point that does not settles the rest (`foldlM_fraction`). So what it
  reads is the number where an amount can be that number, and the nearest to it at the scale it has
  reached where none can (`rounds_of_readChars?`). And it reads nothing but numerals
  (`exists_numeral`).
-/

namespace Tariff

/-! ## Numerals -/

/-- A decimal number as it is written. -/
structure Numeral where
  sign : Option Char
  whole : List Char
  /-- The digits after the point, if there is a point. -/
  fraction : Option (List Char)
  sign_mem : ∀ c ∈ sign, c = '+' ∨ c = '-'
  isDigit : ∀ c ∈ whole ++ fraction.getD [], c.isDigit = true
  ne_nil : whole ++ fraction.getD [] ≠ []

namespace Numeral

def text (n : Numeral) : List Char :=
  n.sign.toList ++ (n.whole ++ n.fraction.elim [] ('.' :: ·))

/-- The digits after the point. -/
def places (n : Numeral) : List Char := n.fraction.getD []

/-- The number without its sign. -/
def magnitude (n : Numeral) : ℚ := digitsAfter 0 (n.whole ++ n.places) / 10 ^ n.places.length

/-- The number. -/
def value (n : Numeral) : ℚ := (if n.sign = some '-' then -1 else 1) * n.magnitude

end Numeral

namespace Decimal

/-- The amount is the number if an amount can be it, and else the nearest to it at its scale. -/
structure Rounds (d : Decimal) (x : ℚ) : Prop where
  near : |d.value - x| * 10 ^ d.scale ≤ 1 / 2
  exact : (∃ e : Decimal, e.value = x) → d.value = x

theorem abs_value (d : Decimal) : |d.value| = d.mantissa / 10 ^ d.scale := by
  have hsign : |(if d.negative then -1 else 1 : ℚ)| = 1 := by cases d.negative <;> simp
  rw [value, abs_mul, hsign, one_mul, abs_of_nonneg (by positivity)]

theorem value_of_ofParts? {negative : Bool} {m s : Nat} {d : Decimal} (h : ofParts? negative m s = some d) :
    d.value = (if negative then -1 else 1) * ((m : ℚ) / 10 ^ s) ∧ d.scale = s := by
  unfold ofParts? at h
  split at h
  · split at h
    · cases h
      refine ⟨?_, rfl⟩
      by_cases hm : m = 0 <;> simp [value, hm]
    · cases h
  · cases h

namespace Reading

/-! ## Steps -/

theorem step?_digit (r : Reading) {c : Char} (h : c.isDigit = true) : r.step? c = r.digit? (c.toNat - 48) := by
  simp [step?, h]

theorem step?_point (r : Reading) : r.step? '.' = if r.pointed then none else some { r with pointed := true } := by
  simp [step?, Char.isDigit]

/-- Digits before the point are all taken, if they are read at all. -/
theorem foldlM_whole {cs : List Char} (hcs : ∀ c ∈ cs, c.isDigit = true) {r r' : Reading}
    (hp : r.pointed = false) (hs : r.settled = false) (hm : r.mantissa < capacity)
    (h : cs.foldlM step? r = some r') :
    r'.mantissa = digitsAfter r.mantissa cs ∧ r'.scale = r.scale ∧ r'.pointed = false ∧ r'.settled = false ∧
      r'.mantissa < capacity := by
  induction cs generalizing r with
  | nil =>
    cases h
    exact ⟨rfl, rfl, hp, hs, hm⟩
  | cons c cs ih =>
    rw [List.foldlM_cons, step?_digit r (hcs c List.mem_cons_self)] at h
    simp only [digit?, hp, hs, Bool.false_eq_true, if_false] at h
    split at h
    · rename_i hfit
      exact ih (fun d hd => hcs d (List.mem_cons_of_mem c hd)) rfl rfl hfit h
    · cases h

/-- There is room for one more digit after the point. -/
def Room (r : Reading) (digit : Nat) : Prop := r.scale < maxScale ∧ r.mantissa * 10 + digit < capacity

theorem foldlM_settled {cs : List Char} (hcs : ∀ c ∈ cs, c.isDigit = true) {r : Reading}
    (hs : r.settled = true) : cs.foldlM step? r = some r := by
  induction cs with
  | nil => rfl
  | cons c cs ih =>
    rw [List.foldlM_cons, step?_digit r (hcs c List.mem_cons_self)]
    simp only [digit?, hs, if_true]
    exact ih fun d hd => hcs d (List.mem_cons_of_mem c hd)

theorem settle?_flags {r r' : Reading} {digit : Nat} (h : r.settle? digit = some r') :
    r'.settled = true ∧ r'.pointed = r.pointed := by
  unfold settle? at h
  split at h
  · unfold roundUp? at h
    split at h
    · cases h
      exact ⟨rfl, rfl⟩
    · split at h
      · cases h
      · cases h
        exact ⟨rfl, rfl⟩
  · cases h
    exact ⟨rfl, rfl⟩

/-- Digits after the point are taken while there is room; the first for which there is none settles
the number, and the rest do not count. -/
theorem foldlM_fraction {cs : List Char} (hcs : ∀ c ∈ cs, c.isDigit = true) {r r' : Reading}
    (hp : r.pointed = true) (hs : r.settled = false) (hm : r.mantissa < capacity) (hscale : r.scale ≤ maxScale)
    (h : cs.foldlM step? r = some r') :
    ∃ taken rest t, cs = taken ++ rest ∧ t.mantissa = digitsAfter r.mantissa taken ∧
      t.scale = r.scale + taken.length ∧ t.mantissa < capacity ∧ t.scale ≤ maxScale ∧
      ((rest = [] ∧ r' = t) ∨
        ∃ c rest', rest = c :: rest' ∧ ¬ t.Room (c.toNat - 48) ∧ t.settle? (c.toNat - 48) = some r') := by
  induction cs generalizing r with
  | nil =>
    cases h
    exact ⟨[], [], r', rfl, rfl, rfl, hm, hscale, .inl ⟨rfl, rfl⟩⟩
  | cons c cs ih =>
    have hrest : ∀ d ∈ cs, d.isDigit = true := fun d hd => hcs d (List.mem_cons_of_mem c hd)
    rw [List.foldlM_cons, step?_digit r (hcs c List.mem_cons_self)] at h
    by_cases hroom : r.Room (c.toNat - 48)
    · have htake : r.digit? (c.toNat - 48) = some { r with
          mantissa := r.mantissa * 10 + (c.toNat - 48), scale := r.scale + 1, started := true } := by
        unfold Room at hroom
        simp [digit?, hp, hs, hroom]
      rw [htake] at h
      obtain ⟨taken, rest, t, rfl, htm, hts, hlt, hle, hend⟩ :=
        ih hrest (r := { r with
          mantissa := r.mantissa * 10 + (c.toNat - 48), scale := r.scale + 1, started := true })
          hp hs hroom.2 hroom.1 h
      refine ⟨c :: taken, rest, t, rfl, htm, ?_, hlt, hle, hend⟩
      rw [hts, List.length_cons]
      exact Nat.add_right_comm r.scale 1 taken.length
    · have hsettle : r.digit? (c.toNat - 48) = r.settle? (c.toNat - 48) := by
        unfold Room at hroom
        simp only [digit?, hp, hs, Bool.false_eq_true, if_false, if_true]
        rw [if_neg hroom]
      rw [hsettle] at h
      obtain ⟨u, hu, h⟩ := Option.bind_eq_some_iff.1 h
      rw [foldlM_settled hrest (settle?_flags hu).1] at h
      cases h
      exact ⟨[], c :: cs, r, rfl, rfl, rfl, hm, hscale, .inr ⟨c, cs, rfl, hroom, hu⟩⟩

/-! ## Settling

The digits from the one that settles the number on are a part `x` of a unit in the last place that
was taken, and that digit is the first of it. -/

/-- The number read so far. -/
def value (r : Reading) : ℚ := r.mantissa / 10 ^ r.scale

/-- Settling goes to the nearest number at the scale that is reached. -/
theorem settle?_near {r r' : Reading} {digit : Nat} {x : ℚ} (hm : r.mantissa < capacity)
    (hlow : (digit : ℚ) ≤ 10 * x) (hhigh : 10 * x < digit + 1) (hx : x < 1)
    (h : r.settle? digit = some r') : |r'.value - (r.mantissa + x) / 10 ^ r.scale| * 10 ^ r'.scale ≤ 1 / 2 := by
  have hx0 : 0 ≤ x := by
    have : (0 : ℚ) ≤ digit := Nat.cast_nonneg digit
    linarith
  have hpow : (10 : ℚ) ^ r.scale ≠ 0 := by positivity
  -- with a difference of `y` units of a place, the distance is `|y|` of its units
  have hunits : ∀ (k : Nat) (y z : ℚ), |y / 10 ^ k - z / 10 ^ k| * 10 ^ k = |y - z| := fun k y z => by
    rw [← sub_div, abs_div, abs_of_pos (by positivity : (0 : ℚ) < 10 ^ k), div_mul_cancel₀ _ (by positivity)]
  unfold settle? at h
  split at h
  · rename_i h5
    have hhalf : (1 : ℚ) / 2 ≤ x := by
      have : (5 : ℚ) ≤ digit := by exact_mod_cast h5
      linarith
    unfold roundUp? at h
    split at h
    · cases h
      rw [value, hunits, abs_le]
      push_cast
      constructor <;> linarith
    · rename_i hfull
      split at h
      · cases h
      · rename_i hscale
        cases h
        obtain ⟨k, hk⟩ : ∃ k, r.scale = k + 1 := ⟨r.scale - 1, by omega⟩
        have hlast : r.mantissa = capacity - 1 := by omega
        have hten : (((r.mantissa + 5) / 10 : Nat) : ℚ) * 10 = r.mantissa + 5 := by
          rw [hlast]
          norm_num [capacity, twoPow]
        have hshift : (r.mantissa + x) / 10 ^ r.scale = ((r.mantissa + x) / 10) / 10 ^ k := by
          rw [hk, pow_succ]
          field_simp
        rw [value, hshift, hk, Nat.add_sub_cancel, hunits, abs_le]
        constructor <;> linarith
  · rename_i h5
    cases h
    have hhalf : x ≤ 1 / 2 := by
      have : (digit : ℚ) ≤ 4 := by exact_mod_cast (by omega : digit ≤ 4)
      linarith
    rw [value, hunits, abs_le]
    constructor <;> linarith

/-- A whole number of coarser units leaves no part of a unit. -/
theorem part_eq_zero {n k s m : Nat} {x : ℚ} (hx0 : 0 ≤ x) (hx : x < 1) (hle : s ≤ k)
    (heq : (n + x) / 10 ^ k = m / 10 ^ s) : x = 0 := by
  have hunits : (n : ℚ) + x = (m * 10 ^ (k - s) : Nat) := by
    have hpow : (10 : ℚ) ^ k = 10 ^ (k - s) * 10 ^ s := by
      rw [← pow_add, Nat.sub_add_cancel hle]
    rw [div_eq_div_iff (by positivity) (by positivity), hpow] at heq
    push_cast
    have hpos : (10 : ℚ) ^ s ≠ 0 := by positivity
    apply mul_right_cancel₀ hpos
    linarith
  have hfloor : n = m * 10 ^ (k - s) := by
    have hlow : n ≤ m * 10 ^ (k - s) := by
      have : (n : ℚ) ≤ (m * 10 ^ (k - s) : Nat) := by linarith
      exact_mod_cast this
    have hhigh : m * 10 ^ (k - s) < n + 1 := by
      have : ((m * 10 ^ (k - s) : Nat) : ℚ) < n + 1 := by linarith
      exact_mod_cast this
    omega
  rw [← hfloor] at hunits
  linarith

/-- A whole number of finer units is at least what is written with one digit more. -/
theorem next_le_of_finer {n k s m digit : Nat} {x : ℚ} (hx0 : 0 ≤ x) (hlow : (digit : ℚ) ≤ 10 * x) (hlt : k < s)
    (heq : (n + x) / 10 ^ k = m / 10 ^ s) : n * 10 + digit ≤ m := by
  have hunits : ((n : ℚ) + x) * 10 ^ (s - k) = m := by
    have hpow : (10 : ℚ) ^ s = 10 ^ (s - k) * 10 ^ k := by
      rw [← pow_add, Nat.sub_add_cancel hlt.le]
    rw [div_eq_div_iff (by positivity) (by positivity), hpow] at heq
    have hpos : (10 : ℚ) ^ k ≠ 0 := by positivity
    apply mul_right_cancel₀ hpos
    linarith
  have hten : (10 : ℚ) ≤ 10 ^ (s - k) := by
    calc (10 : ℚ) = 10 ^ 1 := (pow_one _).symm
      _ ≤ 10 ^ (s - k) := pow_le_pow_right₀ (by norm_num) (by omega)
  have hnonneg : (0 : ℚ) ≤ n + x := by positivity
  have hnext : (n : ℚ) * 10 + digit ≤ m := by
    calc (n : ℚ) * 10 + digit ≤ (n + x) * 10 := by linarith
      _ ≤ (n + x) * 10 ^ (s - k) := mul_le_mul_of_nonneg_left hten hnonneg
      _ = m := hunits
  exact_mod_cast hnext

/-- Where there was no room, a number that an amount can be has only zeros left. -/
theorem settle?_exact {r r' : Reading} {digit : Nat} {x : ℚ} (hs : r.scale ≤ maxScale)
    (hlow : (digit : ℚ) ≤ 10 * x) (hx : x < 1) (hroom : ¬ r.Room digit)
    {m s : Nat} (hm : m < capacity) (hscale : s ≤ maxScale) (heq : (r.mantissa + x) / 10 ^ r.scale = m / 10 ^ s)
    (h : r.settle? digit = some r') : r'.value = (r.mantissa + x) / 10 ^ r.scale := by
  have hdigit : (0 : ℚ) ≤ digit := Nat.cast_nonneg digit
  have hx0 : 0 ≤ x := by linarith
  have hzero : x = 0 := by
    by_cases hle : s ≤ r.scale
    · exact part_eq_zero hx0 hx hle heq
    · -- the next digit would have fitted
      have hnext := next_le_of_finer hx0 hlow (not_le.1 hle) heq
      exact absurd ⟨by omega, by omega⟩ hroom
  subst hzero
  have hdigit0 : digit = 0 := by
    have : (digit : ℚ) ≤ 0 := by linarith
    exact_mod_cast le_antisymm this hdigit
  subst hdigit0
  have hdown : r.settle? 0 = some { r with settled := true } := rfl
  rw [hdown] at h
  cases h
  simp [value]

/-! ## Characters that are read -/

theorem pointed_of_digit? {r r' : Reading} {digit : Nat} (h : r.digit? digit = some r') :
    r'.pointed = r.pointed := by
  simp only [digit?] at h
  split at h
  · cases h
    rfl
  · split at h
    · split at h
      · cases h
        rfl
      · exact (settle?_flags h).2
    · split at h
      · cases h
        rfl
      · cases h

/-- What is read is a digit, the first point, or an underscore. -/
theorem step?_cases {r r' : Reading} {c : Char} (h : r.step? c = some r') :
    (c.isDigit = true ∧ r'.pointed = r.pointed) ∨
      (c = '.' ∧ r.pointed = false ∧ r' = { r with pointed := true }) ∨ (c = '_' ∧ r' = r) := by
  by_cases hdigit : c.isDigit = true
  · rw [step?_digit r hdigit] at h
    exact .inl ⟨hdigit, pointed_of_digit? h⟩
  · unfold step? at h
    rw [if_neg hdigit] at h
    split at h
    · rename_i hpoint
      split at h
      · cases h
      · rename_i hp
        cases h
        exact .inr (.inl ⟨hpoint, by simpa using hp, rfl⟩)
    · split at h
      · rename_i hunder
        split at h
        · cases h
          exact .inr (.inr ⟨hunder, rfl⟩)
        · cases h
      · cases h

theorem isDigit_of_pointed {cs : List Char} (hcs : '_' ∉ cs) {r r' : Reading} (hp : r.pointed = true)
    (h : cs.foldlM step? r = some r') : ∀ c ∈ cs, c.isDigit = true := by
  induction cs generalizing r with
  | nil => simp
  | cons c cs ih =>
    obtain ⟨u, hu, h⟩ := Option.bind_eq_some_iff.1 (by rwa [List.foldlM_cons] at h)
    have hc : c ≠ '_' := fun hx => hcs (hx ▸ List.mem_cons_self)
    rcases step?_cases hu with ⟨hdigit, hpointed⟩ | ⟨-, hno, -⟩ | ⟨hx, -⟩
    · exact List.forall_mem_cons.2
        ⟨hdigit, ih (fun hx => hcs (List.mem_cons_of_mem c hx)) (hpointed.trans hp) h⟩
    · rw [hp] at hno
      cases hno
    · exact absurd hx hc

/-- What is read before a point is digits, and then perhaps the point and digits. -/
theorem exists_digits {cs : List Char} (hcs : '_' ∉ cs) {r r' : Reading} (hp : r.pointed = false)
    (h : cs.foldlM step? r = some r') :
    ∃ (whole : List Char) (fraction : Option (List Char)), cs = whole ++ fraction.elim [] ('.' :: ·) ∧
      ∀ c ∈ whole ++ fraction.getD [], c.isDigit = true := by
  induction cs generalizing r with
  | nil => exact ⟨[], none, rfl, by simp⟩
  | cons c cs ih =>
    obtain ⟨u, hu, h⟩ := Option.bind_eq_some_iff.1 (by rwa [List.foldlM_cons] at h)
    have hrest : '_' ∉ cs := fun hx => hcs (List.mem_cons_of_mem c hx)
    rcases step?_cases hu with ⟨hdigit, hpointed⟩ | ⟨rfl, -, rfl⟩ | ⟨rfl, -⟩
    · obtain ⟨whole, fraction, rfl, hdigits⟩ := ih hrest (hpointed.trans hp) h
      exact ⟨c :: whole, fraction, rfl, List.forall_mem_cons.2 ⟨hdigit, hdigits⟩⟩
    · exact ⟨[], some cs, rfl, isDigit_of_pointed hrest rfl h⟩
    · exact absurd List.mem_cons_self hcs

theorem started_of_nil {r r' : Reading} {fraction : Option (List Char)} (hnone : fraction.getD [] = [])
    (h : (fraction.elim [] ('.' :: ·) : List Char).foldlM step? r = some r') : r'.started = r.started := by
  cases fraction with
  | none =>
    cases h
    rfl
  | some fs =>
    obtain rfl : fs = [] := hnone
    simp only [Option.elim_some, List.foldlM_cons, step?_point] at h
    split at h
    · cases h
    · cases h
      rfl

/-! ## The whole text -/

/-- The digits that are left are a part of a unit, of which the first digit is the first. -/
theorem tail_bounds {c : Char} {cs : List Char} (hc : c.isDigit = true) (hcs : ∀ d ∈ cs, d.isDigit = true) :
    ((c.toNat - 48 : Nat) : ℚ) ≤ 10 * (digitsAfter 0 (c :: cs) / 10 ^ (cs.length + 1)) ∧
      10 * (digitsAfter 0 (c :: cs) / 10 ^ (cs.length + 1) : ℚ) < (c.toNat - 48 : Nat) + 1 ∧
      (digitsAfter 0 (c :: cs) / 10 ^ (cs.length + 1) : ℚ) < 1 := by
  have htail : digitsAfter 0 (c :: cs) = (c.toNat - 48) * 10 ^ cs.length + digitsAfter 0 cs := by
    rw [digitsAfter_cons, digitsAfter_eq, Nat.zero_mul, Nat.zero_add]
  have hpow : (0 : ℚ) < 10 ^ cs.length := by positivity
  have hlow : ((c.toNat - 48 : Nat) : ℚ) ≤ 10 * (digitsAfter 0 (c :: cs) / 10 ^ (cs.length + 1)) := by
    rw [htail, pow_succ, mul_div_assoc', le_div_iff₀ (by positivity)]
    push_cast
    have : (0 : ℚ) ≤ digitsAfter 0 cs := Nat.cast_nonneg _
    linarith
  have hhigh : 10 * (digitsAfter 0 (c :: cs) / 10 ^ (cs.length + 1) : ℚ) < (c.toNat - 48 : Nat) + 1 := by
    rw [htail, pow_succ, mul_div_assoc', div_lt_iff₀ (by positivity)]
    push_cast
    have : (digitsAfter 0 cs : ℚ) < 10 ^ cs.length := by exact_mod_cast digitsAfter_lt hcs
    linarith
  refine ⟨hlow, hhigh, ?_⟩
  have hnine : ((c.toNat - 48 : Nat) : ℚ) ≤ 9 := by exact_mod_cast digit_le hc
  linarith

/-- What is read of a numeral is its magnitude, rounded. -/
theorem foldlM_numeral (n : Numeral) {r' : Reading}
    (h : (n.whole ++ n.fraction.elim [] ('.' :: ·)).foldlM step? empty = some r') :
    |r'.value - n.magnitude| * 10 ^ r'.scale ≤ 1 / 2 ∧
      ∀ m s, m < capacity → s ≤ maxScale → n.magnitude = m / 10 ^ s → r'.value = n.magnitude := by
  have hexact : ∀ {r' : Reading}, r'.value = n.magnitude →
      |r'.value - n.magnitude| * 10 ^ r'.scale ≤ 1 / 2 ∧
        ∀ m s, m < capacity → s ≤ maxScale → n.magnitude = m / 10 ^ s → r'.value = n.magnitude :=
    fun heq => ⟨by rw [heq, sub_self, abs_zero, zero_mul]; norm_num, fun _ _ _ _ _ => heq⟩
  have hwhole : ∀ c ∈ n.whole, c.isDigit = true := fun c hc => n.isDigit c (List.mem_append_left _ hc)
  have hplaces : ∀ c ∈ n.places, c.isDigit = true := fun c hc => n.isDigit c (List.mem_append_right _ hc)
  rw [List.foldlM_append] at h
  obtain ⟨r, hr, h⟩ := Option.bind_eq_some_iff.1 h
  obtain ⟨hm, hscale, hp, hs, hlt⟩ := foldlM_whole hwhole rfl rfl (by decide) hr
  have hm : r.mantissa = digitsAfter 0 n.whole := hm
  have hscale : r.scale = 0 := hscale
  cases hfraction : n.fraction with
  | none =>
    have hnone : n.places = [] := by simp [Numeral.places, hfraction]
    rw [hfraction] at h
    cases h
    apply hexact
    simp [value, Numeral.magnitude, hnone, hm, hscale]
  | some fs =>
    obtain rfl : n.places = fs := by simp [Numeral.places, hfraction]
    rw [hfraction] at h
    simp only [Option.elim_some, List.foldlM_cons, step?_point, hp, Bool.false_eq_true, if_false] at h
    obtain ⟨taken, rest, t, hfs, htm, hts, htlt, htle, hend⟩ :=
      foldlM_fraction hplaces (r := { r with pointed := true }) rfl hs hlt (by simp [hscale]) h
    have htm : t.mantissa = digitsAfter 0 (n.whole ++ taken) := by rw [htm, digitsAfter_append, ← hm]
    have hts : t.scale = taken.length := by rw [hts, hscale, Nat.zero_add]
    obtain ⟨rfl, rfl⟩ | ⟨c, rest', rfl, hroom, hsettle⟩ := hend
    · apply hexact
      rw [value, Numeral.magnitude, hfs, List.append_nil, htm, hts]
    · have hrest : ∀ d ∈ rest', d.isDigit = true := fun d hd => hplaces d (by simp [hfs, hd])
      obtain ⟨hlow, hhigh, hone⟩ := tail_bounds (hplaces c (by simp [hfs])) hrest
      have hmagnitude : n.magnitude =
          (t.mantissa + digitsAfter 0 (c :: rest') / 10 ^ (rest'.length + 1)) / 10 ^ t.scale := by
        rw [Numeral.magnitude, hfs, ← List.append_assoc, digitsAfter_append, ← htm, digitsAfter_eq, hts,
          List.length_append, List.length_cons, pow_add 10 taken.length]
        push_cast
        field_simp
      rw [hmagnitude]
      refine ⟨settle?_near htlt hlow hhigh hone hsettle, fun m s hm hs heq => ?_⟩
      exact settle?_exact htle hlow hone hroom hm hs heq hsettle

end Reading

theorem splitSign_text (n : Numeral) :
    splitSign n.text = (n.sign == some '-', n.whole ++ n.fraction.elim [] ('.' :: ·)) := by
  unfold Numeral.text
  cases hsign : n.sign with
  | some c => rcases n.sign_mem c hsign with rfl | rfl <;> rfl
  | none =>
    have hne := n.ne_nil
    have hdigits := n.isDigit
    -- a text without a sign begins with a digit or a point
    cases hwhole : n.whole with
    | nil =>
      cases hfraction : n.fraction with
      | none => simp [hwhole, hfraction] at hne
      | some fs => rfl
    | cons c cs =>
      have hc : c.isDigit = true := hdigits c (by simp [hwhole])
      have hminus : c ≠ '-' := by rintro rfl; cases hc
      have hplus : c ≠ '+' := by rintro rfl; cases hc
      simp only [Option.toList_none, List.nil_append, List.cons_append]
      unfold splitSign
      split
      · rename_i heq
        exact absurd (List.cons.inj heq).1 hminus
      · rename_i heq
        exact absurd (List.cons.inj heq).1 hplus
      · rfl

theorem readChars?_eq_some {cs : List Char} {d : Decimal} (h : readChars? cs = some d) :
    ∃ r, (splitSign cs).2.foldlM Reading.step? Reading.empty = some r ∧ r.started = true ∧
      ofParts? (splitSign cs).1 r.mantissa r.scale = some d := by
  unfold readChars? at h
  obtain ⟨r, hr, h⟩ := Option.bind_eq_some_iff.1 h
  split at h
  · rename_i hstarted
    exact ⟨r, hr, hstarted, h⟩
  · cases h

/-- What is read of a numeral is its value, rounded. -/
theorem rounds_of_readChars? {n : Numeral} {d : Decimal} (h : readChars? n.text = some d) : d.Rounds n.value := by
  obtain ⟨r, hr, -, hd⟩ := readChars?_eq_some h
  rw [splitSign_text] at hr hd
  obtain ⟨hnear, hexact⟩ := Reading.foldlM_numeral n hr
  obtain ⟨hvalue, hscale⟩ := value_of_ofParts? hd
  have hsigned : d.value = (if n.sign = some '-' then -1 else 1) * r.value := by
    simpa [Reading.value] using hvalue
  have hsign : |(if n.sign = some '-' then -1 else 1 : ℚ)| = 1 := by split <;> simp
  refine ⟨?_, fun hx => ?_⟩
  · rw [hsigned, Numeral.value, ← mul_sub, abs_mul, hsign, one_mul, hscale]
    exact hnear
  · obtain ⟨e, he⟩ := hx
    have habs : n.magnitude = e.mantissa / 10 ^ e.scale := by
      have hpos : 0 ≤ n.magnitude := by
        unfold Numeral.magnitude
        positivity
      rw [← e.abs_value, he, Numeral.value, abs_mul, hsign, one_mul, abs_of_nonneg hpos]
    rw [hsigned, Numeral.value, hexact e.mantissa e.scale e.mantissa_lt e.scale_le habs]

theorem splitSign_cases (cs : List Char) :
    ∃ sign : Option Char, (∀ c ∈ sign, c = '+' ∨ c = '-') ∧ cs = sign.toList ++ (splitSign cs).2 := by
  unfold splitSign
  split
  · exact ⟨some '-', by simp, rfl⟩
  · exact ⟨some '+', by simp, rfl⟩
  · exact ⟨none, by simp, rfl⟩

/-- Nothing is read but numerals, underscores apart. -/
theorem exists_numeral {cs : List Char} {d : Decimal} (hcs : '_' ∉ cs) (h : readChars? cs = some d) :
    ∃ n : Numeral, n.text = cs := by
  obtain ⟨r, hr, hstarted, -⟩ := readChars?_eq_some h
  obtain ⟨sign, hsign, hsplit⟩ := splitSign_cases cs
  have hbody : '_' ∉ (splitSign cs).2 := fun hx => hcs (by rw [hsplit]; exact List.mem_append_right _ hx)
  obtain ⟨whole, fraction, hw, hdigits⟩ := Reading.exists_digits hbody rfl hr
  have hne : whole ++ fraction.getD [] ≠ [] := by
    intro hnil
    obtain ⟨rfl, hnone⟩ := List.append_eq_nil_iff.1 hnil
    rw [hw, List.nil_append] at hr
    rw [Reading.started_of_nil hnone hr] at hstarted
    cases hstarted
  exact ⟨⟨sign, whole, fraction, hsign, hdigits, hne⟩, by rw [Numeral.text, ← hw, ← hsplit]⟩

end Decimal

end Tariff
