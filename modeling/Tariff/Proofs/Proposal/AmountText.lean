import Mathlib
import Tariff.Proofs.Decimal.Range
import Tariff.Proofs.Proposal.TypedAmount
/-
  Tariff.Proofs.Proposal.AmountText — which texts are amounts.

  A text is an amount if it is, blanks at its ends apart, a numeral: at most one sign in front, then
  digits with at most one point, and at least one digit. Its characters then are those of an amount
  (`Numeral.isAmountChar_of_mem`), so the reader decides (`readAmount?_numeral`). It reads every numeral
  that is less than 2^96 by more than a half, and one whose digits fit as it is, with a place for each
  digit after the point (`typed_amount_is_a_numeral`).
-/

namespace Tariff

namespace Numeral

theorem isAmountChar_of_mem {n : Numeral} {c : Char} (h : c ∈ n.text) : isAmountChar c = true := by
  have hdigit : ∀ c ∈ n.whole ++ n.places, isAmountChar c = true := fun c hc => by
    simp [isAmountChar, n.isDigit c hc]
  rw [text] at h
  rcases List.mem_append.1 h with hsign | hbody
  · rcases n.sign_mem c (Option.mem_toList.1 hsign) with rfl | rfl <;> decide
  · rcases List.mem_append.1 hbody with hwhole | hfraction
    · exact hdigit c (List.mem_append_left _ hwhole)
    · cases hf : n.fraction with
      | none => simp [hf] at hfraction
      | some fs =>
        simp only [hf, Option.elim_some, List.mem_cons] at hfraction
        rcases hfraction with rfl | hplace
        · decide
        · exact hdigit c (List.mem_append_right _ (by simpa [places, hf] using hplace))

theorem text_ne_nil (n : Numeral) : n.text ≠ [] := by
  intro h
  simp only [text, List.append_eq_nil_iff] at h
  obtain ⟨-, hwhole, hfraction⟩ := h
  cases hf : n.fraction with
  | none => exact n.ne_nil (by simp [hwhole, hf])
  | some fs => simp [hf] at hfraction

end Numeral

/-- Of a numeral the reader decides. -/
theorem readAmount?_numeral {typed : String} {n : Numeral} (h : n.text = Text.trimChars typed.toList) :
    readAmount? typed = Decimal.readChars? n.text := by
  have hall : n.text.all isAmountChar = true := List.all_eq_true.2 fun c => Numeral.isAmountChar_of_mem
  simp [readAmount?, ← h, hall, n.text_ne_nil]

/-- Nothing is read as an amount but a numeral. A numeral is read exactly if it is less than 2^96 by more
than a half; if its digits without the point write a number below 2^96, and at most 28 of them stand
after the point, it is read as the number that it is, with as many places as it has. -/
theorem typed_amount_is_a_numeral (typed : String) :
    (∀ d, readAmount? typed = some d → ∃ n : Numeral, n.text = Text.trimChars typed.toList) ∧
      ∀ n : Numeral, n.text = Text.trimChars typed.toList →
        ((readAmount? typed).isSome = true ↔ n.magnitude < 2 ^ 96 - 1 / 2) ∧
        (digitsAfter 0 (n.whole ++ n.places) < 2 ^ 96 → n.places.length ≤ 28 →
          ∃ d, readAmount? typed = some d ∧ d.value = n.value ∧ d.scale = n.places.length) := by
  refine ⟨fun d hd => (readAmount?_rounds hd).1, fun n hn => ?_⟩
  rw [readAmount?_numeral hn]
  constructor
  · have hcapacity : (Decimal.capacity : ℚ) = 2 ^ 96 := by norm_num [Decimal.capacity, twoPow]
    rw [Decimal.isSome_readChars?_iff, hcapacity]
  · intro hm hs
    have hparts : Decimal.ofParts? (n.sign == some '-') (digitsAfter 0 (n.whole ++ n.places)) n.places.length =
        some ⟨(n.sign == some '-') && digitsAfter 0 (n.whole ++ n.places) != 0, _, _, hm, hs⟩ := by
      rw [Decimal.ofParts?, dif_pos (show _ < twoPow 96 from hm), dif_pos hs]
    refine ⟨_, (Decimal.readChars?_of_fits n hm hs).trans hparts, ?_, rfl⟩
    rw [(Decimal.value_of_ofParts? hparts).1, Numeral.value, Numeral.magnitude]
    simp

/-- Digits that are rounded away are read to the end of the text: no second point and no sign stands among them. -/
example : readAmount? "1.00000000000000000000000000000." = none ∧
    readAmount? "1.00000000000000000000000000001-5" = none ∧
    (readAmount? "1.00000000000000000000000000001").isSome = true := by
  decide +kernel

end Tariff
