import Mathlib
import Tariff.Decimal.Printer
import Tariff.Proofs.Decimal.Numeral
/-
  Tariff.Proofs.Decimal.Printed — an amount as it is written is read again.

  A numeral of which all digits fit is read digit by digit, and nothing is rounded
  (`readChars?_of_fits`). A sign, a mantissa and a scale are written as a numeral with a place for each
  digit of the scale (`Numeral.ofParts`), and its value is theirs (`Numeral.value_ofParts`). The text of
  an amount is such a numeral. So the amount is read again with its scale (`readAny?_plain`), except that
  a zero loses its sign.
-/

namespace Tariff

namespace Decimal

namespace Reading

/-- Digits that fit are all taken. -/
theorem foldlM_fits {cs : List Char} (hcs : ∀ c ∈ cs, c.isDigit = true) {r : Reading} (hs : r.settled = false)
    (hm : digitsAfter r.mantissa cs < capacity) (hscale : r.pointed = true → r.scale + cs.length ≤ maxScale) :
    cs.foldlM step? r = some { r with
      mantissa := digitsAfter r.mantissa cs
      scale := if r.pointed then r.scale + cs.length else r.scale
      started := r.started || !cs.isEmpty } := by
  induction cs generalizing r with
  | nil => simp
  | cons c cs ih =>
    have hrest : ∀ d ∈ cs, d.isDigit = true := fun d hd => hcs d (List.mem_cons_of_mem c hd)
    rw [digitsAfter_cons] at hm
    have hnext : r.mantissa * 10 + (c.toNat - 48) < capacity := (le_digitsAfter _ cs).trans_lt hm
    rw [List.foldlM_cons, step?_digit r (hcs c List.mem_cons_self)]
    cases hp : r.pointed with
    | false =>
      have htake : r.digit? (c.toNat - 48) =
          some { r with mantissa := r.mantissa * 10 + (c.toNat - 48), started := true } := by
        simp [digit?, hs, hp, hnext]
      rw [htake, Option.bind_eq_bind, Option.bind_some,
        ih (r := { r with mantissa := r.mantissa * 10 + (c.toNat - 48), started := true }) hrest hs hm
          (by simp [hp])]
      simp [hp]
    | true =>
      have hroom := hscale hp
      rw [List.length_cons] at hroom
      have htake : r.digit? (c.toNat - 48) = some { r with
          mantissa := r.mantissa * 10 + (c.toNat - 48), scale := r.scale + 1, started := true } := by
        simp [digit?, hs, hp, hnext, show r.scale < maxScale by omega]
      rw [htake, Option.bind_eq_bind, Option.bind_some,
        ih (r := { r with
          mantissa := r.mantissa * 10 + (c.toNat - 48), scale := r.scale + 1, started := true }) hrest hs hm
          (fun _ => show r.scale + 1 + cs.length ≤ maxScale by omega)]
      simp [hp]
      omega

end Reading

/-- A numeral of which all digits fit is read as it is. -/
theorem readChars?_of_fits (n : Numeral) (hm : digitsAfter 0 (n.whole ++ n.places) < capacity)
    (hs : n.places.length ≤ maxScale) :
    readChars? n.text = ofParts? (n.sign == some '-') (digitsAfter 0 (n.whole ++ n.places)) n.places.length := by
  have hwhole : ∀ c ∈ n.whole, c.isDigit = true := fun c hc => n.isDigit c (List.mem_append_left _ hc)
  have hplaces : ∀ c ∈ n.places, c.isDigit = true := fun c hc => n.isDigit c (List.mem_append_right _ hc)
  have hstarted : (!n.whole.isEmpty || !n.places.isEmpty) = true := by
    rw [← Bool.not_and, Bool.not_eq_true', Bool.and_eq_false_iff, List.isEmpty_eq_false_iff,
      List.isEmpty_eq_false_iff]
    exact not_and_or.1 fun hx => n.ne_nil (List.append_eq_nil_iff.2 hx)
  rw [digitsAfter_append] at hm
  have hread : n.whole.foldlM Reading.step? Reading.empty =
      some ⟨digitsAfter 0 n.whole, 0, false, !n.whole.isEmpty, false⟩ := by
    rw [Reading.foldlM_fits hwhole (r := Reading.empty) rfl ((le_digitsAfter _ _).trans_lt hm)
      (by simp [Reading.empty])]
    simp [Reading.empty]
  rw [readChars?, splitSign_text]
  simp only [List.foldlM_append, hread, Option.bind_eq_bind, Option.bind_some]
  cases hfraction : n.fraction with
  | none =>
    have hnone : n.places = [] := by simp [Numeral.places, hfraction]
    simp_all
  | some fs =>
    obtain rfl : n.places = fs := by simp [Numeral.places, hfraction]
    have hrest := Reading.foldlM_fits hplaces
      (r := ⟨digitsAfter 0 n.whole, 0, true, !n.whole.isEmpty, false⟩) rfl hm (by simpa using hs)
    simp_all [digitsAfter_append, Reading.step?_point]

/-! ## Numbers as they are written -/

end Decimal

namespace Numeral

open Decimal

/-- The numeral of a sign, a mantissa and a scale; a zero has no sign. -/
def ofParts (negative : Bool) (m scale : Nat) : Numeral where
  sign := if negative && m != 0 then some '-' else none
  whole := wholeDigits m scale
  fraction := if scale = 0 then none else some (fractionDigits m scale)
  sign_mem c hc := by
    split at hc
    · exact .inr (Option.mem_some_iff.1 hc).symm
    · cases hc
  isDigit c hc := by
    rcases List.mem_append.1 hc with hwhole | hplaces
    · exact isDigit_of_mem_digits hwhole
    · split at hplaces
      · cases hplaces
      · exact isDigit_of_mem_padded hplaces
  ne_nil h := digits_ne_nil _ (List.append_eq_nil_iff.1 h).1

variable (negative : Bool) (m scale : Nat)

theorem length_places_ofParts : (ofParts negative m scale).places.length = scale := by
  simp only [places, ofParts]
  split
  · rename_i hzero
    simp [hzero]
  · rename_i hpos
    exact length_fractionDigits m (Nat.pos_of_ne_zero hpos)

/-- The digits write the mantissa. -/
theorem digitsAfter_ofParts :
    digitsAfter 0 ((ofParts negative m scale).whole ++ (ofParts negative m scale).places) = m := by
  have hwhole : digitsAfter 0 (ofParts negative m scale).whole = m / 10 ^ scale := digitsAfter_digits _
  have hplaces : digitsAfter 0 (ofParts negative m scale).places = m % 10 ^ scale := by
    simp only [places, ofParts]
    split
    · rename_i h0
      simp [h0, Nat.mod_one]
    · exact digitsAfter_padded _ _
  rw [digitsAfter_append, digitsAfter_eq, hwhole, hplaces, length_places_ofParts]
  exact Nat.div_add_mod' _ _

theorem text_ofParts : (ofParts negative m scale).text = signText negative m ++ magnitudeText m scale := by
  have hsign : (ofParts negative m scale).sign.toList = signText negative m := by
    simp only [signText, ofParts]
    split <;> rfl
  rw [text, hsign]
  by_cases hzero : scale = 0
  · simp [magnitudeText, ofParts, hzero]
  · simp [magnitudeText_of_pos m (Nat.pos_of_ne_zero hzero), ofParts, hzero]

end Numeral

namespace Decimal

/-! ## Amounts as they are written -/

/-- The amount without the sign of a zero. -/
def unsignedZero (d : Decimal) : Decimal := { d with negative := d.negative && d.mantissa != 0 }

theorem unsignedZero_eq_self {d : Decimal} (h : d.negative = true → d.mantissa ≠ 0) : d.unsignedZero = d := by
  rcases d with ⟨_ | _, m, s, hm, hs⟩
  · rfl
  · simpa [unsignedZero] using h rfl

theorem ofParts?_unsignedZero (d : Decimal) :
    ofParts? (d.negative && d.mantissa != 0) d.mantissa d.scale = some d.unsignedZero := by
  simp [ofParts?, d.mantissa_lt, d.scale_le, unsignedZero]

/-- The numeral that an amount is written as. -/
def numeral (d : Decimal) : Numeral := .ofParts d.negative d.mantissa d.scale

theorem toList_plain (d : Decimal) : d.plain.toList = d.numeral.text := by
  rw [plain, String.toList_ofList, numeral, Numeral.text_ofParts]

/-- An amount is read as it was written, with its scale. Only a zero loses its sign. -/
theorem readAny?_plain (d : Decimal) : readAny? d.plain = some d.unsignedZero := by
  have hdigits : digitsAfter 0 (d.numeral.whole ++ d.numeral.places) = d.mantissa := Numeral.digitsAfter_ofParts ..
  have hplaces : d.numeral.places.length = d.scale := Numeral.length_places_ofParts ..
  have hsign : (d.numeral.sign == some '-') = (d.negative && d.mantissa != 0) := by
    simp only [numeral, Numeral.ofParts]
    split <;> simp_all
  have hread : read? d.plain = some d.unsignedZero := by
    rw [read?, toList_plain, readChars?_of_fits _ (hdigits ▸ d.mantissa_lt) (hplaces ▸ d.scale_le), hsign, hdigits,
      hplaces, ofParts?_unsignedZero]
  rw [readAny?, hread]
  rfl

end Decimal

end Tariff
