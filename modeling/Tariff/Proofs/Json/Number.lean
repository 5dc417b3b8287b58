import Mathlib
import Tariff.Binary64.Printer
import Tariff.Json.Draft
import Tariff.Proofs.Binary64.Shortest
import Tariff.Proofs.Decimal.Numeral
/-
  Tariff.Proofs.Json.Number — the number that a JSON number is.

  A JSON number is a decimal number, whatever a reader keeps of it. `exactNumber?` reads it by the
  grammar of JSON and keeps all of it. A floating-point number is written with its shortest digits,
  with a point or with an exponent, and both say exactly what the digits are worth
  (`exactNumber?_compact`).
-/

namespace Tariff

open Decimal (digits padLeft)

/-! ## Digits -/

/-- A number does not start with a zero. -/
theorem head_digits {k : Nat} (h : 0 < k) : (digits k).head? ≠ some '0' := by
  intro hzero
  obtain ⟨cs, hcs⟩ : ∃ cs, digits k = '0' :: cs := by
    cases hd : digits k with
    | nil => exact absurd hd (digits_ne_nil k)
    | cons c cs => rw [hd] at hzero; cases hzero; exact ⟨cs, rfl⟩
  have hcount : Binary64.digitCount k = cs.length + 1 := by
    rw [Binary64.digitCount, if_neg h.ne', ← List.length_cons, ← hcs]
    rfl
  have hlow := (Binary64.digitCount_bounds h).2.1
  have hvalue := digitsAfter_digits k
  have htail : ∀ c ∈ cs, c.isDigit = true := fun c hc =>
    isDigit_of_mem_digits (k := k) (hcs ▸ List.mem_cons_of_mem _ hc)
  have hlt := digitsAfter_lt htail
  rw [hcs, digitsAfter_cons] at hvalue
  rw [hcount, Nat.add_sub_cancel] at hlow
  simp at hvalue
  omega

/-! ## Reading -/

namespace JsonDraft

/-- The number that a JSON number without a sign is. -/
def exactMagnitude? (cs : List Char) : Option ℚ := do
  let (whole, cs) ← wholePart? cs
  let (fraction, cs) ← fractionPart? cs
  let (exponent, cs) ← exponentPart? cs
  if cs.isEmpty then some (digitsAfter 0 (whole ++ fraction) * 10 ^ (exponent.getD 0 - fraction.length)) else none

/-- The number that a JSON number is. -/
def exactNumber? : List Char → Option ℚ
  | '-' :: cs => (exactMagnitude? cs).map fun x => -x
  | cs => exactMagnitude? cs

section
variable {cs rest : List Char}

/-- Digits that may stand before the point: a zero only alone. -/
structure IsWhole (cs : List Char) : Prop where
  ne_nil : cs ≠ []
  isDigit : ∀ c ∈ cs, c.isDigit = true
  zero : cs.head? = some '0' → cs = ['0']

theorem isWhole_digits {k : Nat} (h : 0 < k) : IsWhole (digits k) :=
  ⟨digits_ne_nil k, fun _ => isDigit_of_mem_digits, fun hzero => absurd hzero (head_digits h)⟩

theorem IsWhole.append (h : IsWhole cs) (hzero : cs.head? ≠ some '0') (hrest : ∀ c ∈ rest, c.isDigit = true) :
    IsWhole (cs ++ rest) := by
  obtain ⟨c, ds, rfl⟩ := List.exists_cons_of_ne_nil h.ne_nil
  refine ⟨by simp, fun d hd => ?_, fun hx => absurd hx hzero⟩
  exact (List.mem_append.1 hd).elim (h.isDigit d) (hrest d)

theorem wholePart?_append (h : IsWhole cs) (hrest : NoDigit rest) : wholePart? (cs ++ rest) = some (cs, rest) := by
  obtain ⟨htake, hdrop⟩ := takeWhile_digits h.isDigit hrest
  obtain ⟨c, ds, rfl⟩ := List.exists_cons_of_ne_nil h.ne_nil
  by_cases hc : c = '0'
  · subst hc
    obtain rfl : ds = [] := by simpa using h.zero rfl
    cases rest with
    | nil => rfl
    | cons d rest => simp [wholePart?, hrest d rfl]
  · unfold wholePart?
    split
    · rename_i heq
      rw [List.cons_append] at heq
      exact absurd (List.cons.inj heq).1 hc
    · rw [htake, hdrop]
      rfl

theorem fractionPart?_append (hne : cs ≠ []) (hcs : ∀ c ∈ cs, c.isDigit = true) (hrest : NoDigit rest) :
    fractionPart? ('.' :: cs ++ rest) = some (cs, rest) := by
  obtain ⟨htake, hdrop⟩ := takeWhile_digits hcs hrest
  simp [fractionPart?, htake, hdrop, hne]

/-- The digits before and after the point count, and the exponent. -/
theorem exactMagnitude?_of_parts {whole fraction afterWhole afterFraction : List Char} {exponent : Option Int}
    (hwhole : wholePart? cs = some (whole, afterWhole))
    (hfraction : fractionPart? afterWhole = some (fraction, afterFraction))
    (hexponent : exponentPart? afterFraction = some (exponent, [])) :
    exactMagnitude? cs =
      some (Binary64.decimal (digitsAfter 0 (whole ++ fraction)) (exponent.getD 0 - fraction.length)) := by
  simp [exactMagnitude?, hwhole, hfraction, hexponent, Binary64.decimal]

/-- A whole number, a point and places are what their digits say. -/
theorem exactMagnitude?_pointed {whole fraction : List Char} (hwhole : IsWhole whole) (hne : fraction ≠ [])
    (hfraction : ∀ c ∈ fraction, c.isDigit = true) :
    exactMagnitude? (whole ++ '.' :: fraction) =
      some (Binary64.decimal (digitsAfter 0 (whole ++ fraction)) (-fraction.length)) := by
  have hpoint : NoDigit ('.' :: fraction) := by simp [NoDigit, Char.isDigit]
  have hplaces := fractionPart?_append hne hfraction noDigit_nil
  rw [List.append_nil] at hplaces
  have hnone : exponentPart? [] = some (none, []) := rfl
  have hall := exactMagnitude?_of_parts (wholePart?_append hwhole hpoint) hplaces hnone
  rwa [Option.getD_none, zero_sub] at hall

theorem exponentPart?_exponentText (x : Int) : exponentPart? (Binary64.exponentText x) = some (some x, []) := by
  have hds : ∀ c ∈ digits x.natAbs, c.isDigit = true := fun _ => isDigit_of_mem_digits
  obtain ⟨htake, hdrop⟩ := takeWhile_digits hds noDigit_nil
  rw [List.append_nil] at htake hdrop
  have hvalue : Binary64.digitsValue (digits x.natAbs) = x.natAbs := digitsAfter_digits x.natAbs
  by_cases hx : x < 0
  · have habs : -((x.natAbs : ℕ) : ℤ) = x := by omega
    simp only [exponentPart?, Binary64.exponentText, hx, if_true, true_or, exponentDigits?, htake, hdrop, hvalue, habs,
      List.isEmpty_iff, digits_ne_nil, if_false]
  · have habs : ((x.natAbs : ℕ) : ℤ) = x := by omega
    simp only [exponentPart?, Binary64.exponentText, hx, if_false, if_true, true_or, exponentDigits?, htake, hdrop,
      hvalue, habs, List.isEmpty_iff, digits_ne_nil, Bool.false_eq_true]

/-- Digits with a point after the first one and an exponent are what they say. -/
theorem exactMagnitude?_exponent {k : Nat} (hk : 0 < k) (x : Int) :
    exactMagnitude? (Binary64.leadingDigits (digits k) ++ Binary64.exponentText x) =
      some (Binary64.decimal k (x - ((digits k).length - 1 : ℕ))) := by
  have hvalue := digitsAfter_digits k
  have hwhole := isWhole_digits hk
  have hexponent : NoDigit (Binary64.exponentText x) := by simp [NoDigit, Binary64.exponentText, Char.isDigit]
  obtain ⟨c, ds, hcs⟩ := List.exists_cons_of_ne_nil (digits_ne_nil k)
  rw [hcs] at hvalue hwhole ⊢
  have hfirst : IsWhole [c] :=
    ⟨by simp, fun d hd => hwhole.isDigit d (List.mem_cons.2 (.inl (List.mem_singleton.1 hd))),
      fun hx => by simpa using hx⟩
  rw [← hvalue]
  cases ds with
  | nil =>
    have hnone : fractionPart? (Binary64.exponentText x) = some ([], Binary64.exponentText x) := rfl
    exact exactMagnitude?_of_parts (wholePart?_append hfirst hexponent) hnone (exponentPart?_exponentText x)
  | cons d ds =>
    have hpoint : NoDigit ('.' :: (d :: ds) ++ Binary64.exponentText x) := by simp [NoDigit, Char.isDigit]
    exact exactMagnitude?_of_parts (wholePart?_append hfirst hpoint)
      (fractionPart?_append (by simp) (fun a ha => hwhole.isDigit a (List.mem_cons_of_mem c ha)) hexponent)
      (exponentPart?_exponentText x)

/-- What is a number without a sign does not start with one. -/
theorem exactNumber?_of_magnitude {x : ℚ} (h : exactMagnitude? cs = some x) : exactNumber? cs = some x := by
  unfold exactNumber?
  split
  · -- a minus is no whole part
    rename_i ds
    have hnone : exactMagnitude? ('-' :: ds) = none := rfl
    rw [hnone] at h
    cases h
  · exact h

end

end JsonDraft

/-! ## Floating-point numbers as text -/

namespace Binary64

open JsonDraft

/-- Digits padded to more than `n` characters, without the last `n`, may stand before a point. -/
theorem isWhole_padded {k n : Nat} (hk : 0 < k) :
    IsWhole ((padLeft (n + 1) (digits k)).take ((padLeft (n + 1) (digits k)).length - n)) := by
  rcases Nat.lt_or_ge n (digits k).length with hlong | hshort
  · have hpadded : padLeft (n + 1) (digits k) = digits k := by
      rw [padLeft, show n + 1 - (digits k).length = 0 by omega, List.replicate_zero, List.nil_append]
    rw [hpadded]
    have hwhole := isWhole_digits hk
    obtain ⟨c, ds, hcs⟩ := List.exists_cons_of_ne_nil hwhole.ne_nil
    obtain ⟨i, hi⟩ : ∃ i, (digits k).length - n = i + 1 := ⟨(digits k).length - n - 1, by omega⟩
    refine ⟨by rw [hi, hcs]; simp, fun d hd => hwhole.isDigit d (List.mem_of_mem_take hd), fun hzero => ?_⟩
    exact absurd (by rw [hi, hcs] at hzero; rw [hcs]; exact hzero) (head_digits hk)
  · -- a zero stands in front, alone
    obtain ⟨i, hi⟩ : ∃ i, n + 1 - (digits k).length = i + 1 := ⟨n - (digits k).length, by omega⟩
    have hlength : (padLeft (n + 1) (digits k)).length = n + 1 := by
      rw [padLeft, List.length_append, List.length_replicate]
      omega
    rw [hlength, Nat.add_sub_cancel_left, padLeft, hi, List.replicate_succ]
    exact ⟨by simp, by simp, fun _ => by simp⟩

/-- A whole number gets its zeros and one place. -/
theorem exactMagnitude?_whole {k : Nat} (hk : 0 < k) (n : Nat) :
    exactMagnitude? (withPoint (positionalDigits k n)) = some (decimal k n) := by
  have hzeros : ∀ c ∈ List.replicate n '0', c.isDigit = true := fun c hc => (List.mem_replicate.1 hc).2 ▸ rfl
  have hwhole : IsWhole (digits k ++ List.replicate n '0') := (isWhole_digits hk).append (head_digits hk) hzeros
  have hpoint : (digits k ++ List.replicate n '0').contains '.' = false := by
    rw [List.contains_eq_mem, decide_eq_false_iff_not]
    exact fun hmem => absurd (hwhole.isDigit _ hmem) (by decide)
  rw [positionalDigits, if_pos (Int.natCast_nonneg n), Int.toNat_natCast, withPoint, hpoint,
    if_neg Bool.false_ne_true, exactMagnitude?_pointed hwhole (by simp) (by simp), digitsAfter_append,
    digitsAfter_append_zeros, digitsAfter_digits]
  have hvalue : digitsAfter (k * 10 ^ n) ['0'] = k * 10 ^ (n + 1) := by simp [pow_succ, mul_assoc]
  rw [hvalue, ← decimal_add]
  simp

/-- Of a fraction the last digits are places, zeros in front if there are too few. -/
theorem exactMagnitude?_places {k : Nat} (hk : 0 < k) {n : Nat} (hn : 0 < n) :
    exactMagnitude? (withPoint (positionalDigits k (-n))) = some (decimal k (-n)) := by
  set padded := padLeft (n + 1) (digits k) with hpadded
  have hlong : n + 1 ≤ padded.length := by
    rw [hpadded, padLeft, List.length_append, List.length_replicate]
    omega
  have hplaces : (padded.drop (padded.length - n)).length = n := by
    rw [List.length_drop]
    omega
  have hpoint : (padded.take (padded.length - n) ++ '.' :: padded.drop (padded.length - n)).contains '.' = true := by
    simp
  have hvalue : digitsAfter 0 padded = k := by rw [hpadded, padLeft, digitsAfter_zeros, digitsAfter_digits]
  rw [positionalDigits, if_neg (by omega), neg_neg, Int.toNat_natCast]
  dsimp only
  rw [← hpadded, withPoint, hpoint, if_pos rfl, exactMagnitude?_pointed (isWhole_padded hk), List.take_append_drop,
    hplaces, hvalue]
  · exact List.ne_nil_of_length_pos (by omega)
  · exact fun c hc => isDigit_of_mem_padded (List.mem_of_mem_drop hc)

/-- Notation without an exponent says what the digits are worth. -/
theorem exactMagnitude?_positional {k : Nat} (hk : 0 < k) (p : Int) :
    exactMagnitude? (withPoint (positionalDigits k p)) = some (decimal k p) := by
  obtain ⟨n, rfl⟩ | ⟨n, hn, rfl⟩ := exponent_cases p
  · exact exactMagnitude?_whole hk n
  · exact exactMagnitude?_places hk hn

/-- A floating-point number is written as exactly its shortest digits. -/
theorem exactNumber?_compact {m : Nat} {e : Int} (hm : Normal m e) :
    exactNumber? (compact (.finite false m e)).toList = some (decimal (shortest m e).1 (shortest m e).2) := by
  have hm0 : m ≠ 0 := by
    have := hm.le_mantissa
    omega
  have hpos := (shortest_inSpan hm).pos hm
  rcases hshort : shortest m e with ⟨k, p⟩
  have hk : 0 < k := by
    rw [hshort] at hpos
    by_contra h0
    obtain rfl : k = 0 := by omega
    simp [decimal] at hpos
  apply exactNumber?_of_magnitude
  simp only [compact, if_neg hm0, hshort, minus, Bool.false_eq_true, if_false, List.nil_append]
  split
  · rw [String.toList_ofList]
    exact exactMagnitude?_positional hk p
  · rw [String.toList_ofList, exactMagnitude?_exponent hk]
    have hlen := List.length_pos_of_ne_nil (digits_ne_nil k)
    congr 2
    omega

end Binary64

end Tariff
