import Mathlib
import Tariff.Proofs.Instant.Offsets
import Tariff.Proofs.Text.Spelling
import Tariff.Version.Codec
/-
  Tariff.Proofs.Instant.Retyped — a printed instant can be typed.

  An instant of a year with four digits is printed as a padded time in UTC: with its whole fraction in
  the body of a request, and for people without it. What is typed so is read as RFC 3339, and its
  numbers are those of the instant (`exists_padded`). So the text of a body gives the instant back, and
  the text that people see gives its whole second, whatever blanks stand around them
  (`printed_instant_is_typed_back`). In years that need a sign RFC 3339 does not read what is printed, but
  the same text without the `Z` is typed back (`exists_typed`).
-/

namespace Tariff.Instant

open Tariff.Decimal (digits padLeft)

theorem readTyped?_padded {s s' : String} (h : Text.Padded s s') : readTyped? s' = readTyped? s := by
  rw [readTyped?, readTyped?, h.trimChars_eq]

/-! ## The padded time of an instant -/

theorem date_bounds (t : Instant) : t.date.month < 10 ^ 2 ∧ t.date.day < 10 ^ 2 := by
  obtain ⟨-, ⟨-, hmonth⟩, -, hday⟩ := Date.isValid_iff.1 t.isValid_date
  have := hday.trans (Date.daysInMonth_le _ _)
  omega

theorem clock_bounds (t : Instant) : t.minute / 60 < 10 ^ 2 ∧ t.minute % 60 < 10 ^ 2 ∧ t.second < 10 ^ 2 := by
  have hminute := t.minute_lt
  have hsecond := t.second_le
  omega

section

variable (t : Instant) (h0 : 0 ≤ t.date.year) (h1 : t.date.year ≤ 9999) {ds : List Char} (hds : Groups t.nano ds)

/-- The time of an instant in a year of four digits, in UTC. -/
def padded : PaddedTime where
  date := ⟨.padded 4 t.date.year.natAbs (by norm_num) (by omega), .padded 2 t.date.month two_pos t.date_bounds.1,
    .padded 2 t.date.day two_pos t.date_bounds.2⟩
  clock := ⟨.padded 2 (t.minute / 60) two_pos t.clock_bounds.1, .padded 2 (t.minute % 60) two_pos t.clock_bounds.2.1⟩
  second := .padded 2 t.second two_pos t.clock_bounds.2.2
  fraction := ds
  fraction_isDigit := hds.isDigit

theorem toDate_padded : (t.padded h0 h1 hds).date.toDate = t.date := by
  simp only [padded, PaddedDate.toDate, DigitRun.value_padded, Int.natAbs_of_nonneg h0]

theorem instant?_padded : (t.padded h0 h1 hds).instant? 0 = some t := by
  have hdate := t.toDate_padded h0 h1 hds
  have hminute := t.minute_lt
  have hhour : (t.padded h0 h1 hds).clock.hour.value = t.minute / 60 :=
    DigitRun.value_padded two_pos t.clock_bounds.1
  have hofHour : (t.padded h0 h1 hds).clock.minute.value = t.minute % 60 :=
    DigitRun.value_padded two_pos t.clock_bounds.2.1
  have hsecond : (t.padded h0 h1 hds).second.value = t.second :=
    DigitRun.value_padded two_pos t.clock_bounds.2.2
  have hfits : (t.padded h0 h1 hds).Fits :=
    ⟨hdate ▸ t.isValid_date, by omega, by omega, hsecond ▸ t.second_le⟩
  refine PaddedTime.instant?_eq_some_iff.2 ⟨hfits, by norm_num, ?_, hsecond.symm, hds.nanoOf_eq.symm⟩
  rw [PaddedTime.minuteNumber, hdate, hhour, hofHour, Nat.div_add_mod', Int.sub_zero]
  exact congrArg (· * 1440 + (t.minute : Int)) (Date.toDays_ofDays t.day).symm

/-- It is the text that documents have. -/
theorem text_eq_padded (hfraction : fractionText t.nano = pointed ds) :
    t.text = (t.padded h0 h1 hds).text ++ Offset.utc.text := by
  have hyear : yearText t.date.year = padLeft 4 (digits t.date.year.natAbs) := by
    rw [yearText, if_neg (not_lt.2 h0), if_neg (not_lt.2 h1)]
  apply String.toList_injective
  simp [text, dateText, timeText, hyear, hfraction, padded, PaddedTime.text, PaddedTime.chars, Offset.text,
    PaddedTime.charsWith, PaddedDate.chars, PaddedClock.chars, DigitRun.padded, twoDigits, Offset.chars]

end

/-! ## Typed back -/

/-- The text that documents have of an instant, as a padded time. -/
theorem exists_padded (t : Instant) (h0 : 0 ≤ t.date.year) (h1 : t.date.year ≤ 9999) :
    ∃ w : PaddedTime, t.text = w.text ++ Offset.utc.text ∧ w.fraction.length ∈ [0, 3, 6, 9] ∧
      w.instant? 0 = some t := by
  obtain ⟨ds, hfraction, hds⟩ := fractionText_eq_pointed t.nano_lt
  exact ⟨t.padded h0 h1 hds, t.text_eq_padded h0 h1 hds hfraction, hds.length, t.instant?_padded h0 h1 hds⟩

theorem readTyped?_text (t : Instant) (h0 : 0 ≤ t.date.year) (h1 : t.date.year ≤ 9999) :
    readTyped? t.text = some t := by
  obtain ⟨w, htext, -, hinstant⟩ := t.exists_padded h0 h1
  rw [htext, w.readTyped?_offset]
  exact hinstant

theorem shown_eq_text_wholeSecond (t : Instant) : t.shown = t.wholeSecond.text := by
  simp [shown, text, wholeSecond, date, fractionText]

/-- The text of an instant in the body of a request, typed with any blanks around it, is the instant, and
what people see of it is its whole second. -/
theorem printed_instant_is_typed_back (t : Instant) (h0 : 0 ≤ t.date.year) (h1 : t.date.year ≤ 9999) :
    (∃ w : PaddedTime, w.fraction.length ∈ [0, 3, 6, 9] ∧
        (∀ (code : String) (amount : Decimal),
          (⟨code, amount, t⟩ : NewVersion).toJson.member? "effective_from" = some (.string (w.text ++ "Z"))) ∧
        ∀ s, Text.Padded (w.text ++ "Z") s → readTyped? s = some t) ∧
      ∀ s, Text.Padded (shownOr (some t)) s → readTyped? s = some t.wholeSecond := by
  obtain ⟨w, htext, hlength, -⟩ := t.exists_padded h0 h1
  refine ⟨⟨w, hlength, fun code amount => ?_, fun s hs => ?_⟩, fun s hs => ?_⟩
  · exact congrArg (fun s => some (Json.string s)) htext
  · rw [readTyped?_padded hs, ← readTyped?_text t h0 h1, htext]
    rfl
  · rw [readTyped?_padded hs, ← readTyped?_text t.wholeSecond h0 h1, ← shown_eq_text_wholeSecond]
    rfl

/-- In the leap second at the end of 2016. -/
def inLeapSecond : Instant where
  day := 17166
  minute := 1439
  second := 60
  nano := 123456000
  first_le := by decide
  le_last := by decide
  minute_lt := by decide
  second_le := by decide
  nano_lt := by decide

/-- A leap second and its microseconds are typed back. -/
theorem printed_leap_second_is_typed_back :
    inLeapSecond.text = "2016-12-31T23:59:60.123456Z" ∧
      readTyped? "\t2016-12-31T23:59:60.123456Z \n" = some inLeapSecond ∧
      readTyped? " 2016-12-31T23:59:60Z" = some inLeapSecond.wholeSecond := by
  have htext : inLeapSecond.text = "2016-12-31T23:59:60.123456Z" := by decide +kernel
  obtain ⟨⟨w, -, hbody, hread⟩, hshown⟩ := printed_instant_is_typed_back inLeapSecond (by decide) (by decide)
  have hw : some (Json.string inLeapSecond.text) = some (.string (w.text ++ "Z")) := hbody "USD" (Decimal.unit 0)
  rw [htext, Option.some.injEq, Json.string.injEq] at hw
  rw [← hw] at hread
  exact ⟨htext, hread _ ⟨['\t'], [' ', '\n'], by decide +kernel, by decide +kernel, by decide +kernel⟩,
    hshown _ ⟨[' '], [], by decide +kernel, by decide +kernel, by decide +kernel⟩⟩

/-! ## Every instant can be typed -/

theorem plainDate_dateText {d : Date} (h : d.isValid = true) (rest : List Char) :
    plainDate (dateText d ++ rest) = .ok (d, rest) := by
  obtain ⟨hyear, hmonth, hday⟩ := scans_date h
  rw [dateText_append]
  simp only [plainDate, hyear, hmonth, hday, literal_cons, ok_bind]

/-- The text of an instant, without an offset. -/
def naiveChars (t : Instant) : List Char :=
  dateText t.date ++ 'T' :: (timeText t.minute t.second ++ fractionText t.nano)

theorem withFraction_naiveChars (t : Instant) : withFraction t.naiveChars =
    .ok (⟨t.date, t.minute / 60, t.minute % 60, t.second, t.nano, 0⟩, []) := by
  obtain ⟨hhour, hminute, hsecond⟩ := t.scans_time
  have hfraction : fraction (fractionText t.nano) = .ok (t.nano, []) := by
    have h := fraction_fractionText t.nano_lt noDigit_nil (by simp)
    rwa [List.append_nil] at h
  have htext : t.naiveChars = dateText t.date ++ 'T' :: (twoDigits (t.minute / 60) ++ ':' ::
      (twoDigits (t.minute % 60) ++ ':' :: (twoDigits t.second ++ fractionText t.nano))) := by
    simp [naiveChars, timeText]
  rw [htext]
  simp only [withFraction, plainDate_dateText t.isValid_date, clock, seconds, literal_cons, hhour, hminute, hsecond,
    hfraction, ok_bind]

theorem isBlank_of_mem_naiveChars (t : Instant) : ∀ c ∈ t.naiveChars, Text.isBlank c = false := by
  have hpadded : ∀ n k, ∀ c ∈ padLeft n (digits k), Text.isBlank c = false :=
    fun n k c hc => isBlank_of_isDigit (isDigit_of_mem_padded hc)
  have hyear : ∀ c ∈ yearText t.date.year, Text.isBlank c = false := by
    unfold yearText
    split
    · exact List.forall_mem_cons.2 ⟨rfl, hpadded 4 _⟩
    · split
      · exact List.forall_mem_cons.2 ⟨rfl, hpadded 4 _⟩
      · exact hpadded 4 _
  have hfraction : ∀ c ∈ fractionText t.nano, Text.isBlank c = false := by
    obtain ⟨ds, htext, hds⟩ := fractionText_eq_pointed t.nano_lt
    rw [htext]
    exact isBlank_of_mem_pointed hds.isDigit
  simp only [naiveChars, dateText, timeText, twoDigits, List.forall_mem_append, List.forall_mem_cons, and_assoc]
  exact ⟨hyear, rfl, hpadded 2 _, rfl, hpadded 2 _, rfl, hpadded 2 _, rfl, hpadded 2 _, rfl, hpadded 2 _, hfraction⟩

/-- A year with a sign is no RFC 3339. -/
theorem strictFields_naiveChars {t : Instant} (h : t.date.year < 0 ∨ 9999 < t.date.year) :
    ∃ e, strictFields t.naiveChars = .error e := by
  obtain ⟨c, cs, hc, hyear⟩ : ∃ c cs, c.isDigit = false ∧ yearText t.date.year = c :: cs := by
    rcases h with hneg | hplus
    · exact ⟨'-', _, rfl, if_pos hneg⟩
    · exact ⟨'+', _, rfl, by rw [yearText, if_neg (by omega), if_pos hplus]⟩
  have hsign : NoDigit t.naiveChars := by
    rw [naiveChars, dateText_append, hyear]
    exact noDigit_cons hc _
  obtain ⟨e, he⟩ := number_of_noDigit (some 4) four_pos hsign
  exact ⟨e, by simp only [strictFields, he, error_bind]⟩

/-- Every instant has a text that an operator can type, also in the years that need a sign. -/
theorem exists_typed (t : Instant) : ∃ s, readTyped? s = some t := by
  by_cases hyear : 0 ≤ t.date.year ∧ t.date.year ≤ 9999
  · exact ⟨t.text, readTyped?_text t hyear.1 hyear.2⟩
  · -- RFC 3339 has no years with a sign, so the form without an offset is next
    have hsigned : t.date.year < 0 ∨ 9999 < t.date.year := by omega
    obtain ⟨e, he⟩ := strictFields_naiveChars hsigned
    have hstrict : whole? strictFields t.naiveChars = none := by rw [whole?, he]
    have hwhole : whole? withFraction t.naiveChars = some t := by
      simp only [whole?, withFraction_naiveChars, instant?_fields]
      rfl
    have htrim : Text.Trimmed t.naiveChars :=
      ⟨fun c hc => t.isBlank_of_mem_naiveChars c (List.mem_of_mem_head? hc),
        fun c hc => t.isBlank_of_mem_naiveChars c (List.mem_of_mem_getLast? hc)⟩
    refine ⟨String.ofList t.naiveChars, ?_⟩
    rw [readTyped?, String.toList_ofList, Text.trimChars_eq_self htrim]
    simp only [typedForms, List.findSome?_cons, hstrict, hwhole]

end Tariff.Instant
