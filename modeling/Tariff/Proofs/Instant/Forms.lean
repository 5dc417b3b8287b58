import Mathlib
import Tariff.Proofs.Instant.Padded
/-
  Tariff.Proofs.Instant.Forms — the form that takes a padded text.

  A text counts as an instant when one form takes all of it. A form that breaks off, or leaves a part
  of the text, gives nothing (`Unread`). Of a padded text exactly one form can take all: RFC 3339 when
  an offset stands at the end, the form with seconds behind a `T`, the one without seconds, the one
  with a blank, and the bare date. So what is typed in one of these shapes is the instant of its
  numbers, or nothing, whatever the order of the forms (`readTyped?_offset`, `readTyped?_naive`,
  `readTyped?_spaced`, `readTyped?_minute`, `readTyped?_date`).
-/

namespace Tariff.Instant

open Tariff.Text (dropBlanks isBlank Trimmed)

/-! ## Texts that a form does not take -/

/-- No value, or a value with text behind it. -/
def Unread {α : Type} (x : Except ScanError (α × List Char)) : Prop := ∀ a, x ≠ .ok (a, [])

section

variable {α β : Type}

theorem unread_error (e : ScanError) : Unread (.error e : Except ScanError (α × List Char)) := by simp [Unread]

theorem unread_bind {x : Except ScanError β} {f : β → Except ScanError (α × List Char)}
    (h : ∀ b, Unread (f b)) : Unread (x >>= f) := by
  cases x with
  | error e => exact unread_error e
  | ok b => exact h b

theorem unread_map {x : Except ScanError α} {rest : List Char} (h : rest ≠ []) :
    Unread ((·, rest) <$> x) := by
  cases x with
  | error e => exact unread_error e
  | ok a => exact fun b hb => h (by cases hb; rfl)

end

theorem whole?_of_unread {form : Scan Fields} {cs : List Char} (h : Unread (form cs)) : whole? form cs = none := by
  unfold whole?
  split
  · exact absurd ‹_› (h _)
  · rfl

theorem whole?_of_takes {form : Scan Fields} {cs : List Char} {x : Except ScanError Fields}
    (h : form cs = (·, []) <$> x) : whole? form cs = (x >>= Fields.instant?).toOption := by
  rw [whole?, h]
  cases x <;> rfl

/-- When no other form takes the text, it is read by the one that does. -/
theorem readTyped?_of_takes (before : List (Scan Fields)) {form : Scan Fields} {after : List (Scan Fields)}
    {cs : List Char} {x : Except ScanError Fields} (hforms : typedForms = before ++ form :: after)
    (htrim : Trimmed cs) (h : form cs = (·, []) <$> x) (hbefore : ∀ other ∈ before, Unread (other cs))
    (hafter : ∀ other ∈ after, Unread (other cs)) : readTyped? (String.ofList cs) = (x >>= Fields.instant?).toOption := by
  have hnone : ∀ forms : List (Scan Fields), (∀ other ∈ forms, Unread (other cs)) →
      forms.findSome? (whole? · cs) = none := fun forms hforms =>
    List.findSome?_eq_none_iff.2 fun other hother => whole?_of_unread (hforms other hother)
  rw [readTyped?, String.toList_ofList, Text.trimChars_eq_self htrim, hforms, List.findSome?_append,
    hnone before hbefore, Option.none_or, List.findSome?_cons, hnone after hafter, ← whole?_of_takes h]
  cases whole? form cs <;> rfl

/-! ## Texts at which a form breaks off -/

theorem literal_of_ne {c : Char} {cs : List Char} (h : ∀ x ∈ cs.head?, x ≠ c) : ∃ e, literal c cs = .error e := by
  cases cs with
  | nil => exact ⟨_, rfl⟩
  | cons x cs => exact ⟨_, if_neg (h x rfl)⟩

theorem clock_of_noDigit {cs : List Char} (h : NoDigit (dropBlanks cs)) : ∃ e, clock cs = .error e := by
  obtain ⟨e, he⟩ := number_of_noDigit (some 2) one_pos h
  refine ⟨e, ?_⟩
  simp only [clock, shortNumber, he, error_bind]

namespace PaddedDate

variable (d : PaddedDate) {rest : List Char}

theorem unread_strictFields (h : ∀ date, Unread (strictTime date rest)) : Unread (strictFields (d.chars ++ rest)) := by
  rw [strictFields_padded]
  exact unread_bind h

theorem unread_withFraction (h : ∀ c ∈ rest.head?, c ≠ 'T') : Unread (withFraction (d.chars ++ rest)) := by
  obtain ⟨e, he⟩ := literal_of_ne h
  simp only [withFraction, plainDate_padded, he, bind_map_left, error_bind]
  exact unread_bind fun _ => unread_error e

theorem unread_withoutSeconds (h : ∀ c ∈ rest.head?, c ≠ 'T') : Unread (withoutSeconds (d.chars ++ rest)) := by
  obtain ⟨e, he⟩ := literal_of_ne h
  simp only [withoutSeconds, plainDate_padded, he, bind_map_left, error_bind]
  exact unread_bind fun _ => unread_error e

theorem unread_spaced (h : NoDigit (dropBlanks (dropBlanks rest))) : Unread (spaced (d.chars ++ rest)) := by
  obtain ⟨e, he⟩ := clock_of_noDigit h
  simp only [spaced, plainDate_padded, he, bind_map_left, error_bind]
  exact unread_bind fun _ => unread_error e

theorem unread_spaced_mark : Unread (spaced (d.chars ++ 'T' :: rest)) :=
  d.unread_spaced (noDigit_cons rfl _)

theorem bareDate_chars : bareDate (d.chars ++ rest) = (·, rest) <$> (PaddedTime.atMidnight d).read 0 := by
  simp only [bareDate, plainDate_padded, PaddedTime.read_atMidnight, bind_map_left, map_bind, map_ok]

theorem unread_bareDate (h : rest ≠ []) : Unread (bareDate (d.chars ++ rest)) := by
  rw [bareDate_chars]
  exact unread_map h

end PaddedDate

/-! ## Texts that a form takes -/

theorem dateTimeMark_cons {mark : Char} (h : mark = 'T' ∨ mark = ' ') (cs : List Char) :
    dateTimeMark (mark :: cs) = .ok ((), cs) := by
  rcases h with rfl | rfl <;> rfl

namespace PaddedTime

variable (w : PaddedTime) {rest : List Char}

theorem strictFields_charsWith {mark : Char} (hmark : mark = 'T' ∨ mark = ' ') (hrest : NoDigit rest)
    (hpoint : ∀ c ∈ rest.head?, c ≠ '.') : strictFields (w.charsWith mark ++ rest) = (do
      let fields ← w.read 0
      let (offset, cs) ← offset (fun cs => (literal ':' cs).map (·.2)) rest
      if maxStrictOffset < offset.natAbs then throw .outOfRange
      .ok ({ fields with offset }, cs)) := by
  rw [charsWith_append, PaddedDate.strictFields_padded]
  simp only [strictTime, dateTimeMark_cons hmark, read, PaddedClock.read, PaddedClock.chars_append,
    DigitRun.twoDigit_eq, literal_cons, fraction_pointed w.fraction_isDigit hrest hpoint, ok_bind, bind_map_left,
    bind_assoc]

theorem withFraction_chars (hrest : NoDigit rest) (hpoint : ∀ c ∈ rest.head?, c ≠ '.') :
    withFraction (w.chars ++ rest) = (·, rest) <$> w.read 0 := by
  rw [chars, charsWith_append]
  simp only [withFraction, seconds, read, PaddedDate.plainDate_padded, PaddedClock.clock_padded, literal_cons,
    DigitRun.shortNumber_eq, fraction_pointed w.fraction_isDigit hrest hpoint, ok_bind, map_ok, bind_map_left,
    map_bind]

end PaddedTime

theorem withoutSeconds_chars (d : PaddedDate) (c : PaddedClock) (rest : List Char) :
    withoutSeconds (d.chars ++ 'T' :: (c.chars ++ rest)) = (·, rest) <$> (PaddedTime.atMinute d c).read 0 := by
  simp only [withoutSeconds, PaddedDate.plainDate_padded, PaddedClock.clock_padded, literal_cons, ok_bind,
    bind_map_left, PaddedTime.read_atMinute, map_bind, map_ok]

theorem spaced_chars (d : PaddedDate) (c : PaddedClock) (second : DigitRun 2) (rest : List Char) :
    spaced (d.chars ++ ' ' :: (c.chars ++ ':' :: (second.chars ++ rest))) =
      (·, rest) <$> (PaddedTime.atSecond d c second).read 0 := by
  have hdrop : ∀ cs, dropBlanks (' ' :: (c.chars ++ cs)) = c.chars ++ cs := fun cs => by
    rw [PaddedClock.chars_append]
    exact dropBlanks_digits c.hour.isDigit c.hour.ne_nil
  simp only [spaced, seconds, PaddedDate.plainDate_padded, hdrop, PaddedClock.clock_padded, literal_cons,
    DigitRun.shortNumber_eq, bind_map_left, ok_bind, PaddedTime.read_atSecond, map_bind, map_ok]

/-! ## The ends of the texts -/

theorem DigitRun.isBlank_of_mem {n : Nat} (ds : DigitRun n) : ∀ c ∈ ds.chars, isBlank c = false :=
  fun c hc => isBlank_of_isDigit (ds.isDigit c hc)

/-- What starts with a date, and ends with characters that are no blanks, is trimmed. -/
theorem PaddedDate.trimmed_append (d : PaddedDate) {rest back : List Char} (hend : back <:+ d.chars ++ rest)
    (hne : back ≠ []) (hback : ∀ c ∈ back, isBlank c = false) : Trimmed (d.chars ++ rest) := by
  refine ⟨fun c hc => ?_, fun c hc => ?_⟩
  · rw [chars_append, List.head?_append_of_ne_nil _ d.year.ne_nil] at hc
    exact d.year.isBlank_of_mem c (List.mem_of_mem_head? hc)
  · obtain ⟨front, hfront⟩ := hend
    rw [← hfront, List.getLast?_append_of_ne_nil _ hne] at hc
    exact hback c (List.mem_of_mem_getLast? hc)

namespace Offset

variable (o : Offset)

theorem chars_ne_nil : o.chars ≠ [] := by cases o <;> simp [chars]

theorem isBlank_of_mem : ∀ c ∈ o.chars, isBlank c = false := by
  cases o with
  | utc => exact List.forall_mem_singleton.2 rfl
  | signed negative hours minutes _ _ =>
    simp only [chars, List.forall_mem_cons, List.forall_mem_append]
    exact ⟨by cases negative <;> rfl, hours.isBlank_of_mem, rfl, minutes.isBlank_of_mem⟩

theorem head_chars : ∀ c ∈ o.chars.head?, c.isDigit = false ∧ c ≠ '.' := by
  cases o with
  | utc => simp [chars]
  | signed negative hours minutes _ _ => cases negative <;> simp [chars]

end Offset

theorem isBlank_of_mem_pointed {ds : List Char} (hds : ∀ c ∈ ds, c.isDigit = true) :
    ∀ c ∈ pointed ds, isBlank c = false := by
  unfold pointed
  split
  · simp
  · exact List.forall_mem_cons.2 ⟨rfl, fun c hc => isBlank_of_isDigit (hds c hc)⟩

theorem PaddedTime.isBlank_of_mem (w : PaddedTime) : ∀ c ∈ w.second.chars ++ pointed w.fraction, isBlank c = false :=
  List.forall_mem_append.2 ⟨w.second.isBlank_of_mem, isBlank_of_mem_pointed w.fraction_isDigit⟩

/-! ## What is typed -/

namespace PaddedTime

variable (w : PaddedTime)

theorem unread_strictFields {mark : Char} (hmark : mark = 'T' ∨ mark = ' ') :
    Unread (strictFields (w.charsWith mark)) := by
  have h := w.strictFields_charsWith hmark noDigit_nil (by simp)
  rw [List.append_nil] at h
  rw [h]
  exact unread_bind fun _ => unread_error _

theorem unread_withoutSeconds (rest : List Char) : Unread (withoutSeconds (w.chars ++ rest)) := by
  rw [chars, charsWith_append, withoutSeconds_chars]
  exact unread_map (List.cons_ne_nil _ _)

theorem unread_spaced (rest : List Char) : Unread (spaced (w.chars ++ rest)) := by
  rw [chars, charsWith_append]
  exact w.date.unread_spaced_mark

theorem unread_bareDate (mark : Char) (rest : List Char) : Unread (bareDate (w.charsWith mark ++ rest)) := by
  rw [charsWith_append]
  exact w.date.unread_bareDate (List.cons_ne_nil _ _)

/-- A time with an offset is read as RFC 3339. -/
theorem readTyped?_offset (o : Offset) : readTyped? (w.text ++ o.text) = w.instant? o.minutes := by
  have hrest : NoDigit o.chars := fun c hc => (o.head_chars c hc).1
  have hpoint : ∀ c ∈ o.chars.head?, c ≠ '.' := fun c hc => (o.head_chars c hc).2
  -- RFC 3339 takes the offset to its end, and no other form takes any of it
  have hstrict : strictFields (w.chars ++ o.chars) = (·, []) <$> w.read o.minutes := by
    rw [chars, w.strictFields_charsWith (.inl rfl) hrest hpoint]
    simp only [o.offset_chars, ok_bind, if_neg (not_lt.2 o.natAbs_minutes_le), read, bind_assoc, map_bind, map_ok]
  have hfraction : Unread (withFraction (w.chars ++ o.chars)) := by
    rw [w.withFraction_chars hrest hpoint]
    exact unread_map o.chars_ne_nil
  have htrim : Trimmed (w.chars ++ o.chars) := by
    have hend : o.chars <:+ w.chars ++ o.chars := List.suffix_append _ _
    rw [chars, charsWith_append] at hend ⊢
    exact w.date.trimmed_append hend o.chars_ne_nil o.isBlank_of_mem
  rw [text, Offset.text, ← String.ofList_append]
  refine readTyped?_of_takes [] rfl htrim hstrict (by simp) ?_
  simp only [List.forall_mem_cons]
  exact ⟨hfraction, w.unread_withoutSeconds _, w.unread_spaced _, w.unread_bareDate _ _, by simp⟩

theorem trimmed_charsWith (mark : Char) : Trimmed (w.charsWith mark) := by
  have hend : w.second.chars ++ pointed w.fraction <:+ w.charsWith mark := by
    refine ⟨w.date.chars ++ mark :: (w.clock.chars ++ [':']), ?_⟩
    simp [charsWith]
  exact w.date.trimmed_append hend (by simp [w.second.ne_nil]) w.isBlank_of_mem

/-- A time without an offset is taken as UTC. -/
theorem readTyped?_naive : readTyped? w.text = w.instant? 0 := by
  have hfraction : withFraction w.chars = (·, []) <$> w.read 0 := by
    have h := w.withFraction_chars noDigit_nil (by simp)
    rwa [List.append_nil] at h
  have hwithoutSeconds := w.unread_withoutSeconds []
  have hspaced := w.unread_spaced []
  have hbareDate := w.unread_bareDate 'T' []
  rw [List.append_nil] at hwithoutSeconds hspaced hbareDate
  refine readTyped?_of_takes [strictFields] rfl (w.trimmed_charsWith 'T') hfraction ?_ ?_
  · exact List.forall_mem_singleton.2 (w.unread_strictFields (.inl rfl))
  · simp only [List.forall_mem_cons]
    exact ⟨hwithoutSeconds, hspaced, hbareDate, by simp⟩

end PaddedTime

section

variable (d : PaddedDate) (c : PaddedClock) (second : DigitRun 2)

/-- A date, a blank and a time with seconds. -/
theorem readTyped?_spaced : readTyped? (d.text ++ " " ++ c.text ++ ":" ++ second.text) =
    (PaddedTime.atSecond d c second).instant? 0 := by
  have hchars : (PaddedTime.atSecond d c second).charsWith ' ' =
      d.chars ++ ' ' :: (c.chars ++ ':' :: (second.chars ++ [])) := rfl
  have htext : d.text ++ " " ++ c.text ++ ":" ++ second.text =
      String.ofList (d.chars ++ ' ' :: (c.chars ++ ':' :: (second.chars ++ []))) :=
    String.toList_injective (by simp [PaddedDate.text, PaddedClock.text, DigitRun.text])
  have hspaced := spaced_chars d c second []
  have hstrict := (PaddedTime.atSecond d c second).unread_strictFields (.inr rfl)
  have htrim := (PaddedTime.atSecond d c second).trimmed_charsWith ' '
  rw [hchars] at hstrict htrim
  rw [htext]
  refine readTyped?_of_takes [strictFields, withFraction, withoutSeconds] rfl htrim hspaced ?_ ?_
  · simp only [List.forall_mem_cons]
    exact ⟨hstrict, d.unread_withFraction (by simp), d.unread_withoutSeconds (by simp), by simp⟩
  · exact List.forall_mem_singleton.2 (d.unread_bareDate (List.cons_ne_nil _ _))

/-- A date, a `T`, an hour and a minute. -/
theorem readTyped?_minute : readTyped? (d.text ++ "T" ++ c.text) = (PaddedTime.atMinute d c).instant? 0 := by
  have htext : d.text ++ "T" ++ c.text = String.ofList (d.chars ++ 'T' :: c.chars) :=
    String.toList_injective (by simp [PaddedDate.text, PaddedClock.text])
  have htakes := withoutSeconds_chars d c []
  -- both forms with seconds break off behind the minute
  obtain ⟨e, he⟩ : ∃ e, literal ':' [] = .error e := ⟨_, rfl⟩
  have hstrict : Unread (strictFields (d.chars ++ 'T' :: (c.chars ++ []))) := by
    refine d.unread_strictFields fun date => ?_
    simp only [strictTime, dateTimeMark_cons (.inl rfl), PaddedClock.chars_append, DigitRun.twoDigit_eq, literal_cons,
      ok_bind, bind_map_left, he, error_bind]
    exact unread_bind fun _ => unread_bind fun _ => unread_error e
  have hfraction : Unread (withFraction (d.chars ++ 'T' :: (c.chars ++ []))) := by
    simp only [withFraction, seconds, PaddedDate.plainDate_padded, PaddedClock.clock_padded, literal_cons, ok_bind,
      bind_map_left, he, error_bind]
    exact unread_bind fun _ => unread_bind fun _ => unread_error e
  have hend : c.minute.chars <:+ d.chars ++ 'T' :: c.chars := by
    refine ⟨d.chars ++ 'T' :: (c.hour.chars ++ [':']), ?_⟩
    simp [PaddedClock.chars]
  have htrim := d.trimmed_append hend c.minute.ne_nil c.minute.isBlank_of_mem
  rw [List.append_nil] at htakes hstrict hfraction
  rw [htext]
  refine readTyped?_of_takes [strictFields, withFraction] rfl htrim htakes ?_ ?_
  · simp only [List.forall_mem_cons]
    exact ⟨hstrict, hfraction, by simp⟩
  · simp only [List.forall_mem_cons]
    exact ⟨d.unread_spaced_mark, d.unread_bareDate (List.cons_ne_nil _ _), by simp⟩

/-- A date alone. -/
theorem readTyped?_date : readTyped? d.text = (PaddedTime.atMidnight d).instant? 0 := by
  have hend : d.day.chars <:+ d.chars ++ [] := by
    refine ⟨d.year.chars ++ '-' :: (d.month.chars ++ ['-']), ?_⟩
    simp [PaddedDate.chars]
  have htrim := d.trimmed_append hend d.day.ne_nil d.day.isBlank_of_mem
  have htakes : bareDate (d.chars ++ []) = (·, []) <$> (PaddedTime.atMidnight d).read 0 := d.bareDate_chars
  rw [PaddedDate.text, ← List.append_nil d.chars]
  refine readTyped?_of_takes [strictFields, withFraction, withoutSeconds, spaced] rfl htrim htakes ?_ (by simp)
  simp only [List.forall_mem_cons]
  exact ⟨d.unread_strictFields fun _ => unread_error _, d.unread_withFraction (by simp),
    d.unread_withoutSeconds (by simp), d.unread_spaced noDigit_nil, by simp⟩

end

end Tariff.Instant
