import Mathlib
import Tariff.Instant.Typed
import Tariff.Proofs.Decode.Record
import Tariff.Proofs.Instant.Printed
/-
  Tariff.Proofs.Instant.Padded — dates, times and offsets with all their digits.

  A date is written with four digits and two times two, a time with two digits for each number, and a
  fraction of a second with any digits behind a point. A scan takes such a part from the front of a
  text, whatever the digits are, and then asks whether the numbers are within their bounds. What it
  makes of the numbers is said without the text: `PaddedDate.read`, `PaddedTime.read`. The parts of
  RFC 3339 and of the forms without an offset agree in it (`plainDate_padded`, `strictFields_padded`).
-/

namespace Tariff.Instant

open Tariff.Decimal (digits padLeft)
open Tariff.Text (dropBlanks isBlank)

/-! ## Runs of digits -/

/-- A run of `n` digits. -/
structure DigitRun (n : Nat) where
  chars : List Char
  length_eq : chars.length = n
  isDigit : ∀ c ∈ chars, c.isDigit = true

namespace DigitRun

variable {n low high : Nat}

def text (ds : DigitRun n) : String := String.ofList ds.chars

/-- The number that the digits write. -/
def value (ds : DigitRun n) : Nat := digitsAfter 0 ds.chars

/-- The digits of a number with zeros in front. -/
def padded (n k : Nat) (hn : 0 < n) (hk : k < 10 ^ n) : DigitRun n :=
  ⟨padLeft n (digits k), length_padded hn hk, fun _ => isDigit_of_mem_padded⟩

theorem value_padded {k : Nat} (hn : 0 < n) (hk : k < 10 ^ n) : (padded n k hn hk).value = k := digitsAfter_padded n k

theorem value_lt (ds : DigitRun n) : ds.value < 10 ^ n := by
  have := digitsAfter_lt ds.isDigit
  rwa [ds.length_eq] at this

theorem ne_nil (ds : DigitRun (n + 1)) : ds.chars ≠ [] := by
  intro hnil
  have := ds.length_eq
  rw [hnil] at this
  cases this

theorem chars_two (ds : DigitRun 2) :
    ∃ a b, ds.chars = [a, b] ∧ a.isDigit = true ∧ b.isDigit = true ∧
      ds.value = digitValue a * 10 + digitValue b := by
  obtain ⟨a, b, hab⟩ := List.length_eq_two.1 ds.length_eq
  refine ⟨a, b, hab, ds.isDigit a (by simp [hab]), ds.isDigit b (by simp [hab]), ?_⟩
  simp [value, hab, digitValue]

theorem number_eq {least : Nat} (ds : DigitRun n) (rest : List Char) (hleast : least ≤ n) (hn : n ≤ 18) :
    number least (some n) (ds.chars ++ rest) = .ok (ds.value, rest) := by
  have hfits : ds.value < twoPow 63 :=
    ds.value_lt.trans ((Nat.pow_le_pow_right (by norm_num) hn).trans_lt (by rw [twoPow_63]; norm_num))
  exact number_digits least (some n) rest ds.isDigit (by rwa [ds.length_eq]) (.inl (by rw [ds.length_eq])) hfits

theorem twoDigit_eq (ds : DigitRun 2) (rest : List Char) :
    twoDigit low high (ds.chars ++ rest) = (·, rest) <$> within low high ds.value := by
  simp only [twoDigit, ds.number_eq rest le_rfl (by norm_num), ok_bind, map_eq_pure_bind]
  rfl

theorem shortNumber_eq (ds : DigitRun 2) (rest : List Char) :
    shortNumber low high (ds.chars ++ rest) = (·, rest) <$> within low high ds.value := by
  simp only [shortNumber, dropBlanks_digits ds.isDigit ds.ne_nil, ds.number_eq rest one_le_two (by norm_num),
    ok_bind, map_eq_pure_bind]
  rfl

theorem signedYear_eq (ds : DigitRun 4) (rest : List Char) :
    signedYear (ds.chars ++ rest) = .ok ((ds.value : Int), rest) :=
  signedYear_digits ds.isDigit ds.ne_nil (ds.number_eq rest (by norm_num) (by norm_num))

end DigitRun

/-! ## Dates and times -/

/-- A date as `YYYY-MM-DD`. -/
structure PaddedDate where
  year : DigitRun 4
  month : DigitRun 2
  day : DigitRun 2

/-- An hour and a minute as `HH:MM`. -/
structure PaddedClock where
  hour : DigitRun 2
  minute : DigitRun 2

/-- A date and a time as `YYYY-MM-DDTHH:MM:SS`, with or without a fraction. -/
structure PaddedTime where
  date : PaddedDate
  clock : PaddedClock
  second : DigitRun 2
  /-- The digits behind the point. -/
  fraction : List Char
  fraction_isDigit : ∀ c ∈ fraction, c.isDigit = true

/-- What an RFC 3339 scan does behind the date. -/
def strictTime (date : Date) : Scan Fields := fun cs => do
  let (_, cs) ← dateTimeMark cs
  let (hour, cs) ← twoDigit 0 23 cs
  let (_, cs) ← literal ':' cs
  let (minute, cs) ← twoDigit 0 59 cs
  let (_, cs) ← literal ':' cs
  let (second, cs) ← twoDigit 0 60 cs
  let (nano, cs) ← fraction cs
  let (offset, cs) ← offset (fun cs => (literal ':' cs).map (·.2)) cs
  if maxStrictOffset < offset.natAbs then throw .outOfRange
  .ok (⟨date, hour, minute, second, nano, offset⟩, cs)

theorem literal_cons (c : Char) (cs : List Char) : literal c (c :: cs) = .ok ((), cs) := by simp [literal]

namespace PaddedDate

variable (d : PaddedDate) (rest : List Char)

def chars : List Char := d.year.chars ++ '-' :: (d.month.chars ++ '-' :: d.day.chars)

def text : String := String.ofList d.chars

theorem chars_append :
    d.chars ++ rest = d.year.chars ++ '-' :: (d.month.chars ++ '-' :: (d.day.chars ++ rest)) := by simp [chars]

/-- The date of the digits, its month and day within the bounds for any month and day. -/
def read : Except ScanError Date := do
  let month ← within 1 12 d.month.value
  let day ← within 1 31 d.day.value
  .ok ⟨d.year.value, month, day⟩

theorem plainDate_padded : plainDate (d.chars ++ rest) = (·, rest) <$> d.read := by
  rw [chars_append]
  simp only [plainDate, read, DigitRun.signedYear_eq, literal_cons, DigitRun.shortNumber_eq, ok_bind, map_ok,
    bind_map_left, map_bind]

theorem strictFields_padded : strictFields (d.chars ++ rest) = d.read >>= fun date => strictTime date rest := by
  have hyear : ∀ cs, number 4 (some 4) (d.year.chars ++ cs) = .ok (d.year.value, cs) := fun cs =>
    d.year.number_eq cs le_rfl (by norm_num)
  rw [chars_append]
  simp only [strictFields, strictTime, read, hyear, literal_cons, DigitRun.twoDigit_eq, ok_bind, bind_assoc,
    bind_map_left]

end PaddedDate

namespace PaddedClock

variable (c : PaddedClock) (rest : List Char)

def chars : List Char := c.hour.chars ++ ':' :: c.minute.chars

def text : String := String.ofList c.chars

theorem chars_append : c.chars ++ rest = c.hour.chars ++ ':' :: (c.minute.chars ++ rest) := by simp [chars]

/-- The hour and the minute within their bounds. -/
def read : Except ScanError (Nat × Nat) := do
  let hour ← within 0 23 c.hour.value
  let minute ← within 0 59 c.minute.value
  .ok (hour, minute)

theorem clock_padded : Instant.clock (c.chars ++ rest) = (·, rest) <$> c.read := by
  rw [chars_append]
  simp only [Instant.clock, read, DigitRun.shortNumber_eq, literal_cons, ok_bind, map_ok, bind_map_left, map_bind]

end PaddedClock

/-! ## Offsets -/

/-- An offset from UTC: `Z`, or a sign, two digits of hours, a colon and two digits of minutes. -/
inductive Offset where
  | utc
  | signed (negative : Bool) (hours minutes : DigitRun 2) (hours_le : hours.value ≤ 23)
      (minutes_le : minutes.value ≤ 59)

namespace Offset

def chars : Offset → List Char
  | .utc => ['Z']
  | .signed negative hours minutes _ _ => (if negative then '-' else '+') :: (hours.chars ++ ':' :: minutes.chars)

def text (o : Offset) : String := String.ofList o.chars

/-- Minutes ahead of UTC. -/
def minutes : Offset → Int
  | .utc => 0
  | .signed negative hours minutes _ _ =>
    if negative then -(hours.value * 60 + minutes.value : Nat) else (hours.value * 60 + minutes.value : Nat)

theorem natAbs_minutes_le (o : Offset) : o.minutes.natAbs ≤ maxStrictOffset := by
  cases o with
  | utc => decide
  | signed negative hours mins hh hm =>
    unfold maxStrictOffset
    cases negative <;> simp only [minutes, if_true, if_false, Bool.false_eq_true] <;> omega

theorem lt_six {c : Char} (h : digitValue c ≤ 5) : ¬ '6' ≤ c := by
  intro hle
  have h6 : ('6' : Char).toNat ≤ c.toNat := hle
  have : ('6' : Char).toNat = 54 := rfl
  unfold digitValue at h
  omega

/-- An offset is read to its end. -/
theorem offset_chars (o : Offset) : offset (fun cs => (literal ':' cs).map (·.2)) o.chars = .ok (o.minutes, []) := by
  cases o with
  | utc => rfl
  | signed negative hours mins hh hm =>
    obtain ⟨a, b, hab, ha, hb, habv⟩ := hours.chars_two
    obtain ⟨c, d, hcd, hc, hd, hcdv⟩ := mins.chars_two
    have hfive : ¬ '6' ≤ c := lt_six (by omega)
    have hpair : ∀ (x y : Char) (cs : List Char), pair (x :: y :: cs) = .ok ((x, y), cs) := fun x y cs => by
      have hx : 0 < x.utf8Size := x.utf8Size_pos
      have hy : 0 < y.utf8Size := y.utf8Size_pos
      have hlong : ¬ byteLength (x :: y :: cs) < 2 := by
        have : byteLength (x :: y :: cs) = x.utf8Size + (y.utf8Size + byteLength cs) := rfl
        omega
      simp [pair, hlong]
    cases negative <;>
      simp [chars, minutes, hab, hcd, offset, offsetSign, hpair, ha, hb, hc, hd, hfive, habv, hcdv, literal_cons,
        Except.map, bind, Except.bind]

end Offset

namespace PaddedTime

variable (w : PaddedTime)

/-- The text with this character between date and time. -/
def charsWith (mark : Char) : List Char :=
  w.date.chars ++ mark :: (w.clock.chars ++ ':' :: (w.second.chars ++ pointed w.fraction))

def chars : List Char := w.charsWith 'T'

def text : String := String.ofList w.chars

theorem charsWith_append (mark : Char) (rest : List Char) : w.charsWith mark ++ rest =
    w.date.chars ++ mark :: (w.clock.chars ++ ':' :: (w.second.chars ++ (pointed w.fraction ++ rest))) := by
  simp [charsWith]

/-- The numbers of the digits within their bounds, so many minutes ahead of UTC. -/
def read (offset : Int) : Except ScanError Fields := do
  let date ← w.date.read
  let (hour, minute) ← w.clock.read
  let second ← within 0 60 w.second.value
  .ok ⟨date, hour, minute, second, nanoOf w.fraction, offset⟩

/-- The instant of the numbers. -/
def instant? (offset : Int) : Option Instant := (w.read offset >>= Fields.instant?).toOption

def zeros : DigitRun 2 := ⟨['0', '0'], rfl, by simp⟩

/-- A second without a fraction. -/
def atSecond (d : PaddedDate) (c : PaddedClock) (second : DigitRun 2) : PaddedTime := ⟨d, c, second, [], by simp⟩

/-- The start of a minute. -/
def atMinute (d : PaddedDate) (c : PaddedClock) : PaddedTime := atSecond d c zeros

/-- The start of a day. -/
def atMidnight (d : PaddedDate) : PaddedTime := atMinute d ⟨zeros, zeros⟩

theorem within_zeros (high : Nat) : within 0 high zeros.value = .ok 0 := by
  exact if_pos ⟨le_rfl, Nat.zero_le high⟩

theorem read_atSecond (d : PaddedDate) (c : PaddedClock) (second : DigitRun 2) (offset : Int) :
    (atSecond d c second).read offset = (do
      let date ← d.read
      let (hour, minute) ← c.read
      let second ← within 0 60 second.value
      .ok ⟨date, hour, minute, second, 0, offset⟩) := by
  simp only [read, atSecond, nanoOf_nil]

theorem read_atMinute (d : PaddedDate) (c : PaddedClock) (offset : Int) : (atMinute d c).read offset = (do
    let date ← d.read
    let (hour, minute) ← c.read
    .ok ⟨date, hour, minute, 0, 0, offset⟩) := by
  simp only [atMinute, read_atSecond, within_zeros, ok_bind]

theorem read_atMidnight (d : PaddedDate) (offset : Int) : (atMidnight d).read offset = (do
    let date ← d.read
    .ok ⟨date, 0, 0, 0, 0, offset⟩) := by
  simp only [atMidnight, read_atMinute, PaddedClock.read, within_zeros, ok_bind]

end PaddedTime

end Tariff.Instant
