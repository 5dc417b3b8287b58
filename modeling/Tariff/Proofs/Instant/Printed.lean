import Mathlib
import Tariff.Instant.Printer
import Tariff.Instant.Relaxed
import Tariff.Proofs.Decimal.Digits
import Tariff.Proofs.Instant.Calendar
import Tariff.Proofs.Text.Codes
/-
  Tariff.Proofs.Instant.Printed — an instant as documents write it is read again.

  A scan for a number takes the digits it has room for (`number_digits`). The parts of a written
  instant are such numbers, each in front of a mark that is no digit, and each part is read as it was
  written. The date of its day is one of the calendar and leads back to the day. So a document gives
  back the instant, leap seconds and all nine digits of the fraction included
  (`readRelaxed_text`).
-/

namespace Tariff.Instant

open Tariff.Decimal (digits padLeft)
open Tariff.Text (dropBlanks isBlank)

/-! ## Numbers -/

theorem twoPow_31 : twoPow 31 = 2147483648 := rfl

theorem twoPow_63 : twoPow 63 = 9223372036854775808 := rfl

theorem length_le_byteLength (cs : List Char) : cs.length ≤ byteLength cs := by
  induction cs with
  | nil => exact le_rfl
  | cons c cs ih =>
    have hc : 0 < c.utf8Size := c.utf8Size_pos
    have hcons : byteLength (c :: cs) = c.utf8Size + byteLength cs := rfl
    rw [hcons, List.length_cons]
    omega

/-- The digits that a scan takes. -/
def digitsTaken (most : Option Nat) (cs : List Char) : List Char :=
  match most with
  | some most => (cs.take most).takeWhile Char.isDigit
  | none => cs.takeWhile Char.isDigit

/-- Digits are taken up to where the room ends or another character stands. -/
theorem digitsTaken_append {ds rest : List Char} {most : Option Nat} (hds : ∀ c ∈ ds, c.isDigit = true)
    (hend : most = some ds.length ∨ (NoDigit rest ∧ ∀ m ∈ most, ds.length ≤ m)) :
    digitsTaken most (ds ++ rest) = ds := by
  rcases hend with rfl | ⟨hrest, hroom⟩
  · simpa [digitsTaken, List.takeWhile_eq_self_iff] using hds
  · cases most with
    | none => exact (takeWhile_digits hds hrest).1
    | some most =>
      have hnext : NoDigit (rest.take (most - ds.length)) := by
        intro c hc
        cases rest with
        | nil => simp at hc
        | cons r rest =>
          cases hn : most - ds.length with
          | zero => simp [hn] at hc
          | succ n => exact hrest c (by simpa [hn] using hc)
      rw [digitsTaken, List.take_append, List.take_of_length_le (hroom most rfl)]
      exact (takeWhile_digits hds hnext).1

theorem number_eq (least : Nat) (most : Option Nat) (cs : List Char) : number least most cs =
    if byteLength cs < least then .error .tooShort
    else if (digitsTaken most cs).length < least then .error .invalid
    else if digitsAfter 0 (digitsTaken most cs) < twoPow 63 then
      .ok (digitsAfter 0 (digitsTaken most cs), cs.drop (digitsTaken most cs).length)
    else .error .outOfRange := rfl

theorem number_digits (least : Nat) (most : Option Nat) {ds : List Char} (rest : List Char)
    (hds : ∀ c ∈ ds, c.isDigit = true) (hleast : least ≤ ds.length)
    (hend : most = some ds.length ∨ (NoDigit rest ∧ ∀ m ∈ most, ds.length ≤ m))
    (hfits : digitsAfter 0 ds < twoPow 63) : number least most (ds ++ rest) = .ok (digitsAfter 0 ds, rest) := by
  have hlong : ¬ byteLength (ds ++ rest) < least := by
    have := length_le_byteLength (ds ++ rest)
    rw [List.length_append] at this
    omega
  rw [number_eq, digitsTaken_append hds hend, if_neg hlong, if_neg (not_lt.2 hleast), if_pos hfits,
    List.drop_left]

theorem number_of_noDigit {least : Nat} (most : Option Nat) {cs : List Char} (hleast : 0 < least)
    (h : NoDigit cs) : ∃ e, number least most cs = .error e := by
  have hempty : ∀ c ∈ ([] : List Char), c.isDigit = true := by simp
  have hnone : digitsTaken most ([] ++ cs) = [] := digitsTaken_append hempty (.inr ⟨h, by simp⟩)
  rw [List.nil_append] at hnone
  rw [number_eq, hnone]
  split
  · exact ⟨_, rfl⟩
  · exact ⟨_, if_pos hleast⟩

/-- A padded number is taken with its zeros. -/
theorem number_padded {k n least : Nat} {most : Option Nat} {rest : List Char} (hn : 0 < n) (hk : k < 10 ^ n)
    (hleast : least ≤ n) (hend : most = some n ∨ (NoDigit rest ∧ ∀ m ∈ most, n ≤ m)) (hfits : k < twoPow 63) :
    number least most (padLeft n (digits k) ++ rest) = .ok (k, rest) := by
  have hlen := length_padded hn hk
  have h := number_digits least most rest (fun c hc => isDigit_of_mem_padded (k := k) (n := n) hc)
    (by rwa [hlen]) (by rwa [hlen]) (by rwa [digitsAfter_padded])
  rwa [digitsAfter_padded] at h

theorem isBlank_of_isDigit {c : Char} (h : c.isDigit = true) : isBlank c = false := by
  simp only [Char.isDigit, Bool.and_eq_true, decide_eq_true_eq, ge_iff_le] at h
  have h0 : 48 ≤ c.toNat := h.1
  have h9 : c.toNat ≤ 57 := h.2
  simp only [isBlank, Bool.or_eq_false_iff, Bool.and_eq_false_iff, decide_eq_false_iff_not, beq_eq_false_iff_ne]
  omega

theorem dropBlanks_digits {ds rest : List Char} (hds : ∀ c ∈ ds, c.isDigit = true) (hne : ds ≠ []) :
    dropBlanks (ds ++ rest) = ds ++ rest := by
  refine Text.dropBlanks_eq_self fun c hc => ?_
  rw [List.head?_append_of_ne_nil _ hne] at hc
  exact isBlank_of_isDigit (hds c (List.mem_of_mem_head? hc))

theorem padded_ne_nil (n k : Nat) : padLeft n (digits k) ≠ [] := by
  simp [padLeft, digits_ne_nil]

theorem shortNumber_twoDigits {low high n : Nat} (hlow : low ≤ n) (hhigh : n ≤ high) (hn : n < 100)
    (rest : List Char) : shortNumber low high (twoDigits n ++ rest) = .ok (n, rest) := by
  have hread : number 1 (some 2) (twoDigits n ++ rest) = .ok (n, rest) :=
    number_padded (by norm_num) (by omega) (by norm_num) (.inl rfl)
      (by rw [twoPow_63]; omega)
  have hdrop : dropBlanks (twoDigits n ++ rest) = twoDigits n ++ rest :=
    dropBlanks_digits (fun c => isDigit_of_mem_padded) (padded_ne_nil 2 n)
  simp [shortNumber, hdrop, hread, within, hlow, hhigh, bind, Except.bind]

/-! ## Years -/

theorem yearWithin_of_bounds {y : Int} (h0 : Date.firstYear ≤ y) (h1 : y ≤ Date.lastYear) :
    yearWithin y = .ok y := by
  unfold Date.firstYear at h0
  unfold Date.lastYear at h1
  rw [yearWithin, twoPow_31, if_pos (by omega)]

theorem signedYear_minus {cs rest : List Char} {n : Nat} (h : number 1 none cs = .ok (n, rest))
    (hyear : yearWithin (-(n : Int)) = .ok (-(n : Int))) : signedYear ('-' :: cs) = .ok (-(n : Int), rest) := by
  have hcons : signedYear ('-' :: cs) = (number 1 none cs).bind fun p =>
      (yearWithin (-(p.1 : Int))).bind fun y => .ok (y, p.2) := rfl
  rw [hcons, h, Except.bind]
  dsimp only
  rw [hyear, Except.bind]

theorem signedYear_plus {cs rest : List Char} {n : Nat} (h : number 1 none cs = .ok (n, rest))
    (hyear : yearWithin (n : Int) = .ok (n : Int)) : signedYear ('+' :: cs) = .ok ((n : Int), rest) := by
  have hcons : signedYear ('+' :: cs) = (number 1 none cs).bind fun p =>
      (yearWithin (p.1 : Int)).bind fun y => .ok (y, p.2) := rfl
  rw [hcons, h, Except.bind]
  dsimp only
  rw [hyear, Except.bind]

theorem signedYear_digits {ds rest : List Char} {n : Nat} (hds : ∀ c ∈ ds, c.isDigit = true) (hne : ds ≠ [])
    (h : number 1 (some 4) (ds ++ rest) = .ok (n, rest)) : signedYear (ds ++ rest) = .ok ((n : Int), rest) := by
  rw [signedYear, dropBlanks_digits hds hne]
  cases ds with
  | nil => exact absurd rfl hne
  | cons c ds =>
    have hc := hds c List.mem_cons_self
    have hminus : c ≠ '-' := by rintro rfl; cases hc
    have hplus : c ≠ '+' := by rintro rfl; cases hc
    rw [List.cons_append] at h ⊢
    simp [hminus, hplus, h, bind, Except.bind]

theorem signedYear_yearText {y : Int} (h0 : Date.firstYear ≤ y) (h1 : y ≤ Date.lastYear) {rest : List Char}
    (hrest : NoDigit rest) : signedYear (yearText y ++ rest) = .ok (y, rest) := by
  have hwithin := yearWithin_of_bounds h0 h1
  unfold Date.firstYear at h0
  unfold Date.lastYear at h1
  obtain ⟨n, hn⟩ : ∃ n, y.natAbs = n := ⟨_, rfl⟩
  have hfits : n < twoPow 63 := by
    rw [twoPow_63]
    omega
  -- a signed year has as many digits as it needs, but at least four
  have hlong : number 1 none (padLeft 4 (digits n) ++ rest) = .ok (n, rest) := by
    have h := number_digits 1 none rest (fun c hc => isDigit_of_mem_padded (k := n) (n := 4) hc)
      (le_trans (by norm_num) (length_le_length_padLeft 4 _)) (.inr ⟨hrest, by simp⟩)
      (by rwa [digitsAfter_padded])
    rwa [digitsAfter_padded] at h
  unfold yearText
  rw [hn]
  by_cases hneg : y < 0
  · obtain rfl : y = -(n : Int) := by omega
    rw [if_pos hneg]
    exact signedYear_minus hlong hwithin
  · obtain rfl : y = (n : Int) := by omega
    rw [if_neg hneg]
    by_cases hplus : 9999 < (n : Int)
    · rw [if_pos hplus]
      exact signedYear_plus hlong hwithin
    · rw [if_neg hplus]
      exact signedYear_digits (fun c => isDigit_of_mem_padded) (padded_ne_nil 4 n)
        (number_padded (by norm_num) (by omega) (by norm_num) (.inl rfl) hfits)

/-! ## Fractions -/

/-- The nanoseconds that the digits behind the point write; digits beyond the ninth do not count. -/
def nanoOf (ds : List Char) : Nat := digitsAfter 0 (ds.take 9) * tenPow (9 - (ds.take 9).length)

theorem nanoOf_nil : nanoOf [] = 0 := Nat.zero_mul _

theorem nanoOf_lt {ds : List Char} (hds : ∀ c ∈ ds, c.isDigit = true) : nanoOf ds < 1000000000 := by
  have hlen : (ds.take 9).length ≤ 9 := List.length_take_le 9 ds
  have hlt : digitsAfter 0 (ds.take 9) < 10 ^ (ds.take 9).length :=
    digitsAfter_lt fun c hc => hds c (List.mem_of_mem_take hc)
  calc nanoOf ds < 10 ^ (ds.take 9).length * 10 ^ (9 - (ds.take 9).length) :=
        Nat.mul_lt_mul_of_pos_right hlt (Nat.pow_pos (by norm_num))
    _ = 1000000000 := by rw [← pow_add, Nat.add_sub_cancel' hlen]; norm_num

/-- A point and digits; without digits there is no point. -/
def pointed (ds : List Char) : List Char := if ds = [] then [] else '.' :: ds

theorem fraction_pointed {ds rest : List Char} (hds : ∀ c ∈ ds, c.isDigit = true) (hrest : NoDigit rest)
    (hpoint : ∀ c ∈ rest.head?, c ≠ '.') : fraction (pointed ds ++ rest) = .ok (nanoOf ds, rest) := by
  by_cases hnil : ds = []
  · subst hnil
    cases rest with
    | nil => rfl
    | cons c rest => simp [pointed, nanoOf, fraction, hpoint c rfl]
  · have htake : ∀ c ∈ ds.take 9, c.isDigit = true := fun c hc => hds c (List.mem_of_mem_take hc)
    have hdrop : ∀ c ∈ ds.drop 9, c.isDigit = true := fun c hc => hds c (List.mem_of_mem_drop hc)
    have hfits : digitsAfter 0 (ds.take 9) < twoPow 63 := by
      refine (digitsAfter_lt htake).trans_le ((Nat.pow_le_pow_right (by norm_num) (List.length_take_le 9 ds)).trans ?_)
      rw [twoPow_63]
      norm_num
    -- up to nine digits are taken; then there is no room, or there are no digits left
    have hend : some 9 = some (ds.take 9).length ∨
        (NoDigit (ds.drop 9 ++ rest) ∧ ∀ m ∈ some 9, (ds.take 9).length ≤ m) := by
      by_cases hlong : 9 ≤ ds.length
      · exact .inl (by simp [hlong])
      · refine .inr ⟨?_, by simp⟩
        rw [List.drop_eq_nil_of_le (by omega)]
        exact hrest
    have hnumber : number 1 (some 9) (ds ++ rest) = .ok (digitsAfter 0 (ds.take 9), ds.drop 9 ++ rest) := by
      have hleast : 1 ≤ (ds.take 9).length := by
        have := List.length_pos_iff.2 hnil
        rw [List.length_take]
        omega
      have h := number_digits 1 (some 9) (ds.drop 9 ++ rest) htake hleast hend hfits
      rwa [← List.append_assoc, List.take_append_drop] at h
    have htaken : (ds ++ rest).length - (ds.drop 9 ++ rest).length = (ds.take 9).length := by
      simp only [List.length_append, List.length_drop, List.length_take]
      omega
    have hleft := (takeWhile_digits hdrop hrest).2
    rw [pointed, if_neg hnil, List.cons_append]
    simp only [fraction, hnumber, bind, Except.bind, htaken, hleft, nanoOf]

theorem nanoOf_padded {places n nano : Nat} (hpos : 0 < places) (hle : places ≤ 9) (hn : n < 10 ^ places)
    (hnano : n * tenPow (9 - places) = nano) : nanoOf (padLeft places (digits n)) = nano := by
  have hlen := length_padded hpos hn
  rw [nanoOf, List.take_of_length_le (by rwa [hlen]), digitsAfter_padded, hlen, hnano]

/-- These digits write so many nanoseconds, in groups of three. -/
structure Groups (nano : Nat) (ds : List Char) : Prop where
  isDigit : ∀ c ∈ ds, c.isDigit = true
  nanoOf_eq : nanoOf ds = nano
  length : ds.length ∈ [0, 3, 6, 9]

/-- The fraction of an instant is written with the digits of its nanoseconds. -/
theorem fractionText_eq_pointed {nano : Nat} (h : nano < 1000000000) :
    ∃ ds, fractionText nano = pointed ds ∧ Groups nano ds := by
  have hgroups : ∀ {places n : Nat}, places ∈ [3, 6, 9] → n < 10 ^ places → n * tenPow (9 - places) = nano →
      ∃ ds, '.' :: padLeft places (digits n) = pointed ds ∧ Groups nano ds := by
    intro places n hplaces hn hnano
    have hbounds : 0 < places ∧ places ≤ 9 := by
      simp only [List.mem_cons, List.not_mem_nil, or_false] at hplaces
      omega
    refine ⟨padLeft places (digits n), (if_neg (padded_ne_nil places n)).symm, fun c => isDigit_of_mem_padded,
      nanoOf_padded hbounds.1 hbounds.2 hn hnano, ?_⟩
    rw [length_padded hbounds.1 hn]
    exact List.mem_cons_of_mem 0 hplaces
  unfold fractionText
  split
  · rename_i hzero
    exact ⟨[], rfl, by simp, by rw [nanoOf_nil, hzero], by simp⟩
  · split
    · exact hgroups (by simp) (by omega) (by unfold tenPow; norm_num; omega)
    · split
      · exact hgroups (by simp) (by omega) (by unfold tenPow; norm_num; omega)
      · exact hgroups (by simp) (by omega) (by unfold tenPow; norm_num)

theorem fraction_fractionText {nano : Nat} (h : nano < 1000000000) {rest : List Char} (hrest : NoDigit rest)
    (hpoint : ∀ c ∈ rest.head?, c ≠ '.') : fraction (fractionText nano ++ rest) = .ok (nano, rest) := by
  obtain ⟨ds, htext, hds⟩ := fractionText_eq_pointed h
  rw [htext, fraction_pointed hds.isDigit hrest hpoint, hds.nanoOf_eq]

/-! ## The whole instant -/

theorem spacedLiteral_dash (cs : List Char) : spacedLiteral '-' ('-' :: cs) = .ok ((), cs) := rfl

theorem spacedLiteral_colon (cs : List Char) : spacedLiteral ':' (':' :: cs) = .ok ((), cs) := rfl

/-- The numbers of a date are scanned as they are written. -/
theorem scans_date {d : Date} (h : d.isValid = true) :
    (∀ cs, signedYear (yearText d.year ++ '-' :: cs) = .ok (d.year, '-' :: cs)) ∧
      (∀ cs, shortNumber 1 12 (twoDigits d.month ++ cs) = .ok (d.month, cs)) ∧
      ∀ cs, shortNumber 1 31 (twoDigits d.day ++ cs) = .ok (d.day, cs) := by
  obtain ⟨⟨hy0, hy1⟩, ⟨hm0, hm1⟩, hd0, hd1⟩ := Date.isValid_iff.1 h
  have hdays : d.day ≤ 31 := hd1.trans (Date.daysInMonth_le _ _)
  exact ⟨fun cs => signedYear_yearText hy0 hy1 (noDigit_cons (show '-'.isDigit = false by rfl) cs),
    shortNumber_twoDigits hm0 hm1 (by omega), shortNumber_twoDigits hd0 hdays (by omega)⟩

/-- The numbers of a time are scanned as they are written. -/
theorem scans_time (t : Instant) :
    (∀ cs, shortNumber 0 23 (twoDigits (t.minute / 60) ++ cs) = .ok (t.minute / 60, cs)) ∧
      (∀ cs, shortNumber 0 59 (twoDigits (t.minute % 60) ++ cs) = .ok (t.minute % 60, cs)) ∧
      ∀ cs, shortNumber 0 60 (twoDigits t.second ++ cs) = .ok (t.second, cs) := by
  have hminute := t.minute_lt
  have hsecond := t.second_le
  exact ⟨shortNumber_twoDigits (Nat.zero_le _) (by omega) (by omega),
    shortNumber_twoDigits (Nat.zero_le _) (by omega) (by omega),
    shortNumber_twoDigits (Nat.zero_le _) hsecond (by omega)⟩

theorem dateText_append (d : Date) (rest : List Char) : dateText d ++ rest =
    yearText d.year ++ '-' :: (twoDigits d.month ++ '-' :: (twoDigits d.day ++ rest)) := by simp [dateText]

theorem relaxedDate_dateText {d : Date} (h : d.isValid = true) {rest : List Char} :
    relaxedDate (dateText d ++ rest) = .ok (d, rest) := by
  obtain ⟨hyear, hmonth, hday⟩ := scans_date h
  rw [dateText_append]
  simp only [relaxedDate, bind, Except.bind, hyear, spacedLiteral_dash, hmonth, hday]

theorem isValid_date (t : Instant) : t.date.isValid = true := Date.isValid_ofDays t.first_le t.le_last

theorem relaxedFields_text (t : Instant) : relaxedFields t.text.toList =
    .ok (⟨t.date, t.minute / 60, t.minute % 60, t.second, t.nano, 0⟩, []) := by
  obtain ⟨hhour, hminute, hsecond⟩ := t.scans_time
  have hmark : ∀ cs, dateTimeMark ('T' :: cs) = .ok ((), cs) := fun _ => rfl
  have hfraction : fraction (fractionText t.nano ++ ['Z']) = .ok (t.nano, ['Z']) :=
    fraction_fractionText t.nano_lt (noDigit_cons rfl _) (by simp)
  have hoffset : relaxedOffset ['Z'] = .ok (0, []) := rfl
  have htext : t.text.toList = dateText t.date ++ 'T' :: (twoDigits (t.minute / 60) ++ ':' ::
      (twoDigits (t.minute % 60) ++ ':' :: (twoDigits t.second ++ (fractionText t.nano ++ ['Z'])))) := by
    simp [text, timeText]
  rw [htext]
  simp only [relaxedFields, bind, Except.bind, relaxedDate_dateText t.isValid_date, hmark, hhour,
    spacedLiteral_colon, hminute, hsecond, hfraction, hoffset]

theorem ofParts?_eq_some_iff {day : Int} {minute second nano : Nat} {t : Instant} :
    ofParts? day minute second nano = some t ↔
      t.day = day ∧ t.minute = minute ∧ t.second = second ∧ t.nano = nano := by
  unfold ofParts?
  constructor
  · intro h
    split at h
    · split at h
      · obtain rfl := Option.some.inj h
        exact ⟨rfl, rfl, rfl, rfl⟩
      · cases h
    · cases h
  · rintro ⟨rfl, rfl, rfl, rfl⟩
    rw [dif_pos ⟨t.first_le, t.le_last⟩, dif_pos ⟨t.minute_lt, t.second_le, t.nano_lt⟩]

/-- The offset moves day and minute; second and fraction stay. -/
theorem Fields.instant?_eq_ok_iff {f : Fields} {t : Instant} :
    f.instant? = .ok t ↔ f.date.isValid = true ∧ f.offset.natAbs < 1440 ∧
      t.day * 1440 + t.minute = f.date.toDays * 1440 + (f.hour * 60 + f.minute : Nat) - f.offset ∧
      t.second = f.second ∧ t.nano = f.nano := by
  have hminute := t.minute_lt
  obtain ⟨total, htotal⟩ : ∃ total, f.date.toDays * 1440 + (f.hour * 60 + f.minute : Nat) - f.offset = total :=
    ⟨_, rfl⟩
  have hparts : ofParts? (total / 1440) (total % 1440).toNat f.second f.nano = some t ↔
      t.day * 1440 + t.minute = total ∧ t.second = f.second ∧ t.nano = f.nano := by
    rw [ofParts?_eq_some_iff]
    omega
  rw [htotal, ← hparts]
  simp only [Fields.instant?, htotal]
  by_cases hvalid : f.date.isValid = true
  · by_cases hoffset : f.offset.natAbs < 1440
    · rw [if_neg (by simp [hvalid]), if_neg (by omega)]
      cases ofParts? (total / 1440) (total % 1440).toNat f.second f.nano <;> simp [hvalid, hoffset]
    · rw [if_neg (by simp [hvalid]), if_pos (by omega)]
      simp [hoffset]
  · simp [hvalid]

theorem instant?_fields (t : Instant) :
    Fields.instant? ⟨t.date, t.minute / 60, t.minute % 60, t.second, t.nano, 0⟩ = .ok t := by
  have hclock : t.minute / 60 * 60 + t.minute % 60 = t.minute := Nat.div_add_mod' _ _
  refine Fields.instant?_eq_ok_iff.2 ⟨t.isValid_date, by norm_num, ?_, rfl, rfl⟩
  rw [hclock, Int.sub_zero]
  exact congrArg (· * 1440 + (t.minute : Int)) (Date.toDays_ofDays t.day).symm

/-- A document gives back the instant that it was given. -/
theorem readRelaxed_text (t : Instant) : readRelaxed t.text = .ok t := by
  rw [readRelaxed, relaxedFields_text]
  simp only [bind, Except.bind, instant?_fields]
  rfl

end Tariff.Instant
