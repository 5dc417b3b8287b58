import Mathlib
import Tariff.Proofs.Instant.Forms
/-
  Tariff.Proofs.Instant.Offsets — the instant of a padded time, with and without an offset.

  The numbers of a padded time are an instant when the calendar has the date and the clock the time
  (`Fits`). An offset moves the day and the minute and keeps second and fraction, and a year of four
  digits is far from the ends of what can be written, so no offset can make a time one that is not an
  instant (`instant?_eq_some_iff`, `isSome_instant?_iff`). Hence the forms agree
  (`offsets_and_naive_times_agree`).
-/

namespace Tariff.Instant

/-! ## Numbers within their bounds -/

theorem within_eq_ok_iff {low high n m : Nat} : within low high n = .ok m ↔ (low ≤ n ∧ n ≤ high) ∧ m = n := by
  unfold within
  split
  · rename_i h
    simp [h, eq_comm]
  · rename_i h
    simp [h]

/-- The date that the digits write. -/
def PaddedDate.toDate (d : PaddedDate) : Date := ⟨d.year.value, d.month.value, d.day.value⟩

theorem PaddedDate.read_eq_ok_iff {d : PaddedDate} {date : Date} : d.read = .ok date ↔
    (1 ≤ d.month.value ∧ d.month.value ≤ 12) ∧ (1 ≤ d.day.value ∧ d.day.value ≤ 31) ∧ date = d.toDate := by
  simp only [read, bind_eq_ok_iff, within_eq_ok_iff, Except.ok.injEq, toDate]
  constructor
  · rintro ⟨_, ⟨hmonth, rfl⟩, _, ⟨hday, rfl⟩, rfl⟩
    exact ⟨hmonth, hday, rfl⟩
  · rintro ⟨hmonth, hday, rfl⟩
    exact ⟨_, ⟨hmonth, rfl⟩, _, ⟨hday, rfl⟩, rfl⟩

theorem PaddedClock.read_eq_ok_iff {c : PaddedClock} {p : Nat × Nat} : c.read = .ok p ↔
    c.hour.value ≤ 23 ∧ c.minute.value ≤ 59 ∧ p = (c.hour.value, c.minute.value) := by
  simp only [read, bind_eq_ok_iff, within_eq_ok_iff, Except.ok.injEq]
  constructor
  · rintro ⟨_, ⟨⟨-, hhour⟩, rfl⟩, _, ⟨⟨-, hminute⟩, rfl⟩, rfl⟩
    exact ⟨hhour, hminute, rfl⟩
  · rintro ⟨hhour, hminute, rfl⟩
    exact ⟨_, ⟨⟨Nat.zero_le _, hhour⟩, rfl⟩, _, ⟨⟨Nat.zero_le _, hminute⟩, rfl⟩, rfl⟩

namespace PaddedTime

variable (w : PaddedTime) {offset : Int}

/-- The calendar has the date, and the clock the time, which may be in a leap second. -/
structure Fits : Prop where
  date : w.date.toDate.isValid = true
  hour : w.clock.hour.value ≤ 23
  minute : w.clock.minute.value ≤ 59
  second : w.second.value ≤ 60

/-- The minute of the digits, from the start of day 0. -/
def minuteNumber : Int := w.date.toDate.toDays * 1440 + (w.clock.hour.value * 60 + w.clock.minute.value : Nat)

theorem read_eq_ok_iff {f : Fields} : w.read offset = .ok f ↔
    ((1 ≤ w.date.month.value ∧ w.date.month.value ≤ 12) ∧ 1 ≤ w.date.day.value ∧ w.date.day.value ≤ 31) ∧
      (w.clock.hour.value ≤ 23 ∧ w.clock.minute.value ≤ 59) ∧ w.second.value ≤ 60 ∧
      f = ⟨w.date.toDate, w.clock.hour.value, w.clock.minute.value, w.second.value, nanoOf w.fraction, offset⟩ := by
  simp only [read, bind_eq_ok_iff, PaddedDate.read_eq_ok_iff, PaddedClock.read_eq_ok_iff, within_eq_ok_iff,
    Except.ok.injEq]
  constructor
  · rintro ⟨_, ⟨hmonth, hday, rfl⟩, _, ⟨hhour, hminute, rfl⟩, _, ⟨⟨-, hsecond⟩, rfl⟩, rfl⟩
    exact ⟨⟨hmonth, hday⟩, ⟨hhour, hminute⟩, hsecond, rfl⟩
  · rintro ⟨⟨hmonth, hday⟩, ⟨hhour, hminute⟩, hsecond, rfl⟩
    exact ⟨_, ⟨hmonth, hday, rfl⟩, _, ⟨hhour, hminute, rfl⟩, _, ⟨⟨Nat.zero_le _, hsecond⟩, rfl⟩, rfl⟩

variable {w} {t : Instant}

theorem instant?_eq_some_iff : w.instant? offset = some t ↔ w.Fits ∧ offset.natAbs < 1440 ∧
    t.day * 1440 + t.minute = w.minuteNumber - offset ∧ t.second = w.second.value ∧ t.nano = nanoOf w.fraction := by
  have hbind : w.instant? offset = some t ↔ ∃ f, w.read offset = .ok f ∧ f.instant? = .ok t := by
    rw [← bind_eq_ok_iff, instant?]
    cases w.read offset >>= Fields.instant? <;> simp [Except.toOption]
  rw [hbind]
  constructor
  · rintro ⟨f, hread, hinstant⟩
    obtain ⟨-, ⟨hhour, hminute⟩, hsecond, rfl⟩ := w.read_eq_ok_iff.1 hread
    obtain ⟨hdate, hoffset, heq⟩ := Fields.instant?_eq_ok_iff.1 hinstant
    exact ⟨⟨hdate, hhour, hminute, hsecond⟩, hoffset, heq⟩
  · rintro ⟨hfits, hoffset, heq⟩
    obtain ⟨-, hmonth, hday0, hday1⟩ := Date.isValid_iff.1 hfits.date
    have hday := hday1.trans (Date.daysInMonth_le _ _)
    exact ⟨_, w.read_eq_ok_iff.2 ⟨⟨hmonth, hday0, hday⟩, ⟨hfits.hour, hfits.minute⟩, hfits.second, rfl⟩,
      Fields.instant?_eq_ok_iff.2 ⟨hfits.date, hoffset, heq⟩⟩

/-- A year of four digits leaves room for any offset. -/
theorem Fits.day_bounds (hfits : w.Fits) (hoffset : offset.natAbs < 1440) :
    firstDay ≤ (w.minuteNumber - offset) / 1440 ∧ (w.minuteNumber - offset) / 1440 ≤ lastDay := by
  have hyear : w.date.toDate.year ≤ 9999 := by
    have := w.date.year.value_lt
    simp only [PaddedDate.toDate]
    omega
  obtain ⟨hlow, hhigh⟩ := Date.toDays_bounds hfits.date (Int.natCast_nonneg _) hyear
  have hhour := hfits.hour
  have hminute := hfits.minute
  rw [Date.firstDay_eq, Date.lastDay_eq]
  unfold minuteNumber
  omega

/-- Whether there is an instant does not depend on the offset. -/
theorem isSome_instant?_iff (hoffset : offset.natAbs < 1440) : (w.instant? offset).isSome = true ↔ w.Fits := by
  rw [Option.isSome_iff_exists]
  constructor
  · rintro ⟨t, ht⟩
    exact (instant?_eq_some_iff.1 ht).1
  · intro hfits
    obtain ⟨hfirst, hlast⟩ := hfits.day_bounds hoffset
    obtain ⟨m, hm⟩ : ∃ m, w.minuteNumber - offset = m := ⟨_, rfl⟩
    rw [hm] at hfirst hlast
    refine ⟨⟨m / 1440, (m % 1440).toNat, w.second.value, nanoOf w.fraction, hfirst, hlast, by omega, hfits.second,
      nanoOf_lt w.fraction_isDigit⟩, instant?_eq_some_iff.2 ⟨hfits, hoffset, ?_, rfl, rfl⟩⟩
    simp only [hm]
    omega

end PaddedTime

/-! ## The forms agree -/

section

variable (d : PaddedDate) (c : PaddedClock) (second : DigitRun 2)

theorem text_atSecond : (PaddedTime.atSecond d c second).text = d.text ++ "T" ++ c.text ++ ":" ++ second.text :=
  String.toList_injective (by
    simp [PaddedTime.text, PaddedTime.chars, PaddedTime.charsWith, PaddedTime.atSecond, PaddedDate.text,
      PaddedClock.text, DigitRun.text, pointed])

theorem text_atMinute : (PaddedTime.atMinute d c).text = d.text ++ "T" ++ c.text ++ ":00" := by
  rw [PaddedTime.atMinute, text_atSecond]
  exact String.append_assoc

theorem text_atMidnight : (PaddedTime.atMidnight d).text = d.text ++ "T00:00:00" := by
  rw [PaddedTime.atMidnight, text_atMinute, String.append_assoc, String.append_assoc]
  rfl

end

/-- The second instant is the first, so many minutes earlier, a leap second if the first is one. -/
structure EarlierBy (minutes : Int) (t u : Instant) : Prop where
  minute : u.day * 1440 + u.minute = t.day * 1440 + t.minute - minutes
  second : u.second = t.second
  nano : u.nano = t.nano

theorem PaddedTime.instant?_earlierBy (w : PaddedTime) {offset : Int} (hoffset : offset.natAbs < 1440) :
    Option.Rel (EarlierBy offset) (w.instant? 0) (w.instant? offset) := by
  have hiff : (w.instant? 0).isSome = true ↔ (w.instant? offset).isSome = true := by
    rw [w.isSome_instant?_iff (by norm_num), w.isSome_instant?_iff hoffset]
  cases ht : w.instant? 0 with
  | none =>
    cases hu : w.instant? offset with
    | none => exact .none
    | some u => simp [ht, hu] at hiff
  | some t =>
    cases hu : w.instant? offset with
    | none => simp [ht, hu] at hiff
    | some u =>
      obtain ⟨-, -, hminute, hsecond, hnano⟩ := instant?_eq_some_iff.1 ht
      obtain ⟨-, -, hminute', hsecond', hnano'⟩ := instant?_eq_some_iff.1 hu
      exact .some ⟨by omega, hsecond'.trans hsecond.symm, hnano'.trans hnano.symm⟩

/-- A time with an offset is the time without it, so much earlier, and each form is the full one at its second. -/
theorem offsets_and_naive_times_agree (w : PaddedTime) :
    ((readTyped? w.text).isSome = true ↔ w.Fits) ∧
      (∀ o : Offset, Option.Rel (EarlierBy o.minutes) (readTyped? w.text) (readTyped? (w.text ++ o.text))) ∧
      readTyped? (w.text ++ "Z") = readTyped? w.text ∧
      readTyped? w.date.text = readTyped? (w.date.text ++ "T00:00:00") ∧
      readTyped? (w.date.text ++ "T" ++ w.clock.text) =
        readTyped? (w.date.text ++ "T" ++ w.clock.text ++ ":00") ∧
      readTyped? (w.date.text ++ " " ++ w.clock.text ++ ":" ++ w.second.text) =
        readTyped? (w.date.text ++ "T" ++ w.clock.text ++ ":" ++ w.second.text) := by
  refine ⟨?_, fun o => ?_, ?_, ?_, ?_, ?_⟩
  · rw [w.readTyped?_naive]
    exact w.isSome_instant?_iff (by norm_num)
  · rw [w.readTyped?_offset, w.readTyped?_naive]
    exact w.instant?_earlierBy (Nat.lt_succ_of_le o.natAbs_minutes_le)
  · exact (w.readTyped?_offset .utc).trans w.readTyped?_naive.symm
  · rw [← text_atMidnight, PaddedTime.readTyped?_naive, readTyped?_date]
  · rw [← text_atMinute, PaddedTime.readTyped?_naive, readTyped?_minute]
  · rw [← text_atSecond, PaddedTime.readTyped?_naive, readTyped?_spaced]

example : readTyped? "2015-12-31T19:00:00-05:00" = readTyped? "2016-01-01" := by decide +kernel

end Tariff.Instant
