import Mathlib
import Tariff.Proposal.Gate
import Tariff.Proofs.Binary64.Whole
import Tariff.Proofs.Instant.Printed
import Tariff.Proofs.Proposal.AmountText
/-
  Tariff.Proofs.Proposal.WholeAmount — integers as amounts.

  An integer in decimal digits is read as the amount that it is, and as none from 2^96 on
  (`readAmount?_integral`, `readAmount?_toString`). So two integers are read as one amount only if they are one
  integer or both too large (`ofInt?_eq_iff`). Of the text of an amount the gate sees what is read of it, so
  proposals that are read as one amount are decided alike (`sameAmount_iff`).
-/

namespace Tariff

open Decimal (digits)
open Binary64 (minus)

/-- The integer of a sign and a magnitude. -/
def signed (negative : Bool) (k : Nat) : Int := if negative then -k else k

theorem abs_signed (negative : Bool) (k : Nat) : |signed negative k| = k := by
  cases negative <;> simp [signed]

theorem signed_sub_signed (negative : Bool) (k l : Nat) : |signed negative k - signed negative l| = |(k : ℤ) - l| := by
  cases negative
  · rfl
  · simp only [signed, if_true]
    rw [neg_sub_neg, abs_sub_comm]

/-! ## Integers as text -/

theorem toList_toString (n : Int) : (toString n).toList = minus (decide (n < 0)) ++ digits n.natAbs := by
  cases n with
  | ofNat k =>
    have hsign : decide (Int.ofNat k < 0) = false := decide_eq_false (by simp)
    rw [hsign]
    show (toString k).toList = digits k
    exact Nat.toList_repr
  | negSucc k =>
    have hsign : decide (Int.negSucc k < 0) = true := decide_eq_true (Int.negSucc_lt_zero k)
    rw [hsign]
    show ("-" ++ toString (k + 1)).toList = '-' :: digits (k + 1)
    rw [String.toList_append]
    exact congrArg ('-' :: ·) Nat.toList_repr

/-! ## Integers as amounts -/

theorem ofInt?_signed (negative : Bool) (k : Nat) :
    Decimal.ofInt? (signed negative k) = Decimal.ofParts? negative k 0 := by
  have habs : (signed negative k).natAbs = k := by cases negative <;> simp [signed]
  rw [Decimal.ofInt?, habs]
  cases negative with
  | false =>
    have hsign : decide (signed false k < 0) = false := decide_eq_false (not_lt.2 (Int.natCast_nonneg k))
    rw [hsign]
  | true =>
    by_cases hk : k = 0
    · simp [signed, hk, Decimal.ofParts?]
    · have hneg : signed true k < 0 := by
        simp only [signed, if_true]
        omega
      simp [hneg]

theorem ofInt?_eq_none_iff (n : Int) : Decimal.ofInt? n = none ↔ 2 ^ 96 ≤ |n| := by
  have hcast : |n| = (n.natAbs : ℤ) := Int.abs_eq_natAbs n
  rw [Decimal.ofInt?, Decimal.ofParts?, hcast]
  by_cases hlt : n.natAbs < twoPow 96
  · have hlt' : n.natAbs < 2 ^ 96 := hlt
    simp only [hlt, dif_pos, Nat.zero_le, reduceCtorEq, false_iff, not_le]
    exact_mod_cast hlt'
  · have hge : 2 ^ 96 ≤ n.natAbs := not_lt.1 hlt
    simp only [hlt, dif_neg, not_false_eq_true, true_iff]
    exact_mod_cast hge

theorem value_ofInt? {n : Int} {d : Decimal} (h : Decimal.ofInt? n = some d) : d.value = n := by
  have hvalue := (Decimal.value_of_ofParts? h).1
  rw [hvalue]
  by_cases hn : n < 0
  · obtain ⟨k, rfl⟩ : ∃ k : ℕ, n = -k := ⟨n.natAbs, by omega⟩
    simp
  · obtain ⟨k, rfl⟩ : ∃ k : ℕ, n = k := ⟨n.natAbs, by omega⟩
    simp

/-- Two integers are one amount if they are one integer, or both too large. -/
theorem ofInt?_eq_iff (n n' : Int) :
    Decimal.ofInt? n' = Decimal.ofInt? n ↔ n' = n ∨ 2 ^ 96 ≤ |n| ∧ 2 ^ 96 ≤ |n'| := by
  constructor
  · intro h
    cases hn : Decimal.ofInt? n with
    | none =>
      rw [hn] at h
      exact .inr ⟨(ofInt?_eq_none_iff n).1 hn, (ofInt?_eq_none_iff n').1 h⟩
    | some d =>
      rw [hn] at h
      have hvalue : (n' : ℚ) = n := by rw [← value_ofInt? h, value_ofInt? hn]
      exact .inl (by exact_mod_cast hvalue)
  · rintro (rfl | ⟨hn, hn'⟩)
    · rfl
    · rw [(ofInt?_eq_none_iff n).2 hn, (ofInt?_eq_none_iff n').2 hn']

/-- An integer in digits, perhaps with a sign, is read as the amount that it is. -/
theorem readAmount?_integral {sign : Option Char} {ds : List Char} (hsign : ∀ c ∈ sign, c = '+' ∨ c = '-')
    (hne : ds ≠ []) (hds : ∀ c ∈ ds, c.isDigit = true) :
    readAmount? (String.ofList (sign.toList ++ ds)) =
      Decimal.ofInt? (signed (sign == some '-') (digitsAfter 0 ds)) := by
  let n : Numeral := ⟨sign, ds, none, hsign, by simpa using hds, by simpa using hne⟩
  have hdigits : n.whole ++ n.places = ds := List.append_nil ds
  have hmagnitude : n.magnitude = digitsAfter 0 ds := by simp [Numeral.magnitude, n, Numeral.places]
  have hblank : ∀ c ∈ n.text, Text.isBlank c = false := fun c hc => by
    have hchar := Numeral.isAmountChar_of_mem hc
    simp only [isAmountChar, Bool.or_eq_true, beq_iff_eq] at hchar
    rcases hchar with ((hdigit | rfl) | rfl) | rfl
    · exact Instant.isBlank_of_isDigit hdigit
    all_goals decide
  have htext : n.text = Text.trimChars (String.ofList (sign.toList ++ ds)).toList := by
    have hchars : sign.toList ++ ds = n.text := by simp [Numeral.text, n]
    rw [String.toList_ofList, hchars, Text.trimChars_eq_self]
    exact ⟨fun c hc => hblank c (List.mem_of_mem_head? hc), fun c hc => hblank c (List.mem_of_getLast? hc)⟩
  rw [readAmount?_numeral htext, ofInt?_signed]
  by_cases hfit : digitsAfter 0 ds < Decimal.capacity
  · rw [Decimal.readChars?_of_fits n (hdigits ▸ hfit) (Nat.zero_le _), hdigits]
    rfl
  · have hnone : Decimal.readChars? n.text = none := by
      rw [← Option.not_isSome_iff_eq_none, Decimal.isSome_readChars?_iff, hmagnitude]
      have hge : (Decimal.capacity : ℚ) ≤ digitsAfter 0 ds := by exact_mod_cast not_lt.1 hfit
      linarith
    rw [hnone, Decimal.ofParts?, dif_neg (show ¬ _ < twoPow 96 from hfit)]

theorem readAmount?_minus_digits (negative : Bool) (k : Nat) :
    readAmount? (String.ofList (minus negative ++ digits k)) = Decimal.ofInt? (signed negative k) := by
  have hdigits : ∀ c ∈ digits k, c.isDigit = true := fun _ => isDigit_of_mem_digits
  cases negative with
  | false =>
    have hread : readAmount? (String.ofList ((none : Option Char).toList ++ digits k)) = _ :=
      readAmount?_integral (by simp) (digits_ne_nil k) hdigits
    rwa [digitsAfter_digits] at hread
  | true =>
    have hread : readAmount? (String.ofList ((some '-').toList ++ digits k)) = _ :=
      readAmount?_integral (by simp) (digits_ne_nil k) hdigits
    rwa [digitsAfter_digits] at hread

theorem readAmount?_toString (n : Int) : readAmount? (toString n) = Decimal.ofInt? n := by
  have hsigned : signed (decide (n < 0)) n.natAbs = n := by
    unfold signed
    split
    · rename_i hn
      have : n < 0 := of_decide_eq_true hn
      omega
    · rename_i hn
      have : ¬ n < 0 := fun h => hn (decide_eq_true h)
      omega
  have htext : toString n = String.ofList (minus (decide (n < 0)) ++ digits n.natAbs) := by
    rw [← toList_toString, String.ofList_toList]
  rw [htext, readAmount?_minus_digits, hsigned]

/-! ## One amount in two texts -/

namespace Proposal

/-- Two texts of an amount are read as one, so the gate decides alike on every proposal. -/
def SameAmount (s t : String) : Prop :=
  readAmount? s = readAmount? t ∧ ∀ (p : Proposal) (currencies : List Currency) (history : History) (now : Instant),
    { p with amount := s }.validate currencies history now = { p with amount := t }.validate currencies history now

theorem sameAmount_iff {s t : String} : SameAmount s t ↔ readAmount? s = readAmount? t := by
  refine ⟨And.left, fun h => ⟨h, fun p currencies history now => ?_⟩⟩
  have hjudge : ∀ currency, judgeAmount currency s = judgeAmount currency t := fun currency => by
    rw [judgeAmount, judgeAmount, h]
  simp only [validate, hjudge]

end Proposal

end Tariff
