import Mathlib
import Tariff.Decimal.Printer
/-
  Tariff.Proofs.Decimal.Digits — the number that digits write.

  Digits write a number behind those that stand before them (`digitsAfter`). The digits of a number
  write the number (`digitsAfter_digits`), also with zeros in front; padded to a length that it does
  not exceed, they have this length (`length_padded`). Where no digit follows, the digits at the front
  of a text are found again (`takeWhile_digits`).
-/

namespace Tariff

open Decimal (digits padLeft)

/-! ## Values -/

/-- The number that digits write behind those of another number. -/
def digitsAfter (m : Nat) (cs : List Char) : Nat := cs.foldl (fun n c => n * 10 + (c.toNat - 48)) m

@[simp] theorem digitsAfter_nil (m : Nat) : digitsAfter m [] = m := rfl

@[simp] theorem digitsAfter_cons (m : Nat) (c : Char) (cs : List Char) :
    digitsAfter m (c :: cs) = digitsAfter (m * 10 + (c.toNat - 48)) cs := by
  rw [digitsAfter, List.foldl_cons, digitsAfter]

theorem digitsAfter_append (m : Nat) (cs ds : List Char) :
    digitsAfter m (cs ++ ds) = digitsAfter (digitsAfter m cs) ds := List.foldl_append

theorem digitsAfter_eq (m : Nat) (cs : List Char) :
    digitsAfter m cs = m * 10 ^ cs.length + digitsAfter 0 cs := by
  induction cs generalizing m with
  | nil => simp
  | cons c cs ih =>
    rw [digitsAfter_cons, digitsAfter_cons, ih (m * 10 + _), ih (0 * 10 + _), List.length_cons, pow_succ]
    ring

/-- More digits never write less. -/
theorem le_digitsAfter (m : Nat) (cs : List Char) : m ≤ digitsAfter m cs := by
  rw [digitsAfter_eq]
  exact (Nat.le_mul_of_pos_right m (by positivity)).trans (Nat.le_add_right _ _)

theorem digit_le {c : Char} (h : c.isDigit = true) : c.toNat - 48 ≤ 9 := by
  have h57 : c.toNat ≤ 57 := by
    simp only [Char.isDigit, Bool.and_eq_true, decide_eq_true_eq] at h
    exact h.2
  omega

theorem digitsAfter_lt {cs : List Char} (h : ∀ c ∈ cs, c.isDigit = true) :
    digitsAfter 0 cs < 10 ^ cs.length := by
  induction cs with
  | nil => simp
  | cons c cs ih =>
    have hc := digit_le (h c List.mem_cons_self)
    have hcs := ih fun d hd => h d (List.mem_cons_of_mem c hd)
    rw [digitsAfter_cons, digitsAfter_eq, List.length_cons, pow_succ]
    nlinarith

/-! ## The digits of a number -/

theorem digitsAfter_digits (k : Nat) : digitsAfter 0 (digits k) = k := by
  have hfold : ∀ (cs : List Char) (n : Nat), digitsAfter n cs = Nat.ofDigitChars 10 cs n := by
    intro cs
    induction cs with
    | nil => intro n; rfl
    | cons c cs ih =>
      intro n
      rw [digitsAfter_cons, ih, Nat.ofDigitChars_cons, mul_comm]
      rfl
  rw [hfold, digits, Nat.ofDigitChars_ten_toDigits]

theorem isDigit_of_mem_digits {k : Nat} {c : Char} (h : c ∈ digits k) : c.isDigit = true :=
  Nat.isDigit_of_mem_toDigits (by norm_num) (by norm_num) h

theorem digits_ne_nil (k : Nat) : digits k ≠ [] := Nat.toDigits_ne_nil

/-- Times ten is a zero more. -/
theorem digits_mul_pow {k : Nat} (hk : 0 < k) (n : Nat) : digits (k * 10 ^ n) = digits k ++ List.replicate n '0' := by
  induction n with
  | zero => simp
  | succ n ih =>
    have hlarge : ¬ k * 10 ^ n * 10 < 10 := by
      have : 0 < k * 10 ^ n := Nat.mul_pos hk (by positivity)
      omega
    rw [pow_succ, ← mul_assoc, digits, Nat.toDigits_eq_if (by norm_num), if_neg hlarge, Nat.mul_div_cancel _ (by norm_num),
      Nat.mul_mod_left, List.replicate_succ', ← List.append_assoc, ← ih]
    rfl

/-- Zeros in front are worth nothing. -/
theorem digitsAfter_zeros (n : Nat) (cs : List Char) :
    digitsAfter 0 (List.replicate n '0' ++ cs) = digitsAfter 0 cs := by
  induction n with
  | zero => rfl
  | succ n ih => simpa [List.replicate_succ] using ih

/-- A zero behind is a factor of ten. -/
theorem digitsAfter_append_zeros (m n : Nat) (cs : List Char) :
    digitsAfter m (cs ++ List.replicate n '0') = digitsAfter m cs * 10 ^ n := by
  induction n with
  | zero => simp
  | succ n ih =>
    rw [List.replicate_succ', ← List.append_assoc, digitsAfter_append, ih]
    simp [pow_succ, mul_assoc]

/-! ## Padded digits -/

theorem isDigit_of_mem_padded {k n : Nat} {c : Char} (h : c ∈ padLeft n (digits k)) : c.isDigit = true := by
  rcases List.mem_append.1 h with hzero | hdigit
  · rw [(List.mem_replicate.1 hzero).2]
    rfl
  · exact isDigit_of_mem_digits hdigit

theorem digitsAfter_padded (n k : Nat) : digitsAfter 0 (padLeft n (digits k)) = k := by
  rw [padLeft, digitsAfter_zeros, digitsAfter_digits]

theorem Decimal.length_padLeft {n : Nat} {cs : List Char} (h : cs.length ≤ n) : (padLeft n cs).length = n := by
  simp only [padLeft, List.length_append, List.length_replicate]
  omega

/-- A number that has at most `n` digits has `n` of them when it is padded. -/
theorem length_padded {k n : Nat} (hn : 0 < n) (h : k < 10 ^ n) : (padLeft n (digits k)).length = n :=
  Decimal.length_padLeft ((Nat.length_toDigits_le_iff (by norm_num) hn).2 h)

theorem length_le_length_padLeft (n : Nat) (cs : List Char) : n ≤ (padLeft n cs).length := by
  simp only [padLeft, List.length_append, List.length_replicate]
  omega

namespace Decimal

theorem length_fractionDigits (m : Nat) {places : Nat} (h : 0 < places) :
    (fractionDigits m places).length = places :=
  length_padded h (Nat.mod_lt _ (Nat.pow_pos (by norm_num)))

theorem magnitudeText_of_pos (m : Nat) {places : Nat} (h : 0 < places) :
    magnitudeText m places = wholeDigits m places ++ '.' :: fractionDigits m places := by
  have hne : (fractionDigits m places).isEmpty = false := by
    rw [List.isEmpty_eq_false_iff, ← List.length_pos_iff, length_fractionDigits m h]
    exact h
  rw [magnitudeText, if_neg h.ne', pointed, hne, if_neg Bool.false_ne_true]

end Decimal

/-! ## Digits at the front of a text -/

/-- No digit follows. -/
def NoDigit (cs : List Char) : Prop := ∀ c ∈ cs.head?, c.isDigit = false

theorem noDigit_nil : NoDigit [] := by simp [NoDigit]

theorem noDigit_cons {c : Char} (h : c.isDigit = false) (cs : List Char) : NoDigit (c :: cs) := by
  simp [NoDigit, h]

theorem takeWhile_digits {cs rest : List Char} (hcs : ∀ c ∈ cs, c.isDigit = true) (hrest : NoDigit rest) :
    (cs ++ rest).takeWhile Char.isDigit = cs ∧ (cs ++ rest).dropWhile Char.isDigit = rest := by
  rw [List.takeWhile_append_of_pos hcs, List.dropWhile_append_of_pos hcs]
  cases rest with
  | nil => simp
  | cons c rest => simp [hrest c rfl]

end Tariff
