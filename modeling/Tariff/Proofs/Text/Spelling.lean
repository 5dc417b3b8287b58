import Mathlib
import Tariff.Proofs.Text.Codes
/-
  Tariff.Proofs.Text.Spelling — the spellings of a code, and blanks around a text.

  A text is padded with blanks at its ends (`Padded`), which trimming takes away again
  (`Padded.trimChars_eq`). A code is spelled in another way when its ASCII letters are in another
  case, or blanks stand around it (`Respelled`). All spellings of a code have one key
  (`Respelled.codeKey_eq`), and the key decides on the trimmed code in upper case
  (`upper_trim_congr`).
-/

namespace Tariff.Text

/-! ## Blanks at the ends -/

/-- The second text is the first with blanks in front and behind. -/
def Padded (s t : String) : Prop :=
  ∃ front back : List Char, front.all isBlank = true ∧ back.all isBlank = true ∧
    t.toList = front ++ s.toList ++ back

theorem dropBlanks_append {front : List Char} (h : ∀ c ∈ front, isBlank c = true) (cs : List Char) :
    dropBlanks (front ++ cs) = dropBlanks cs := List.dropWhile_append_of_pos h

theorem trimChars_append {cs back : List Char} (h : ∀ c ∈ back, isBlank c = true) :
    trimChars (cs ++ back) = trimChars cs := by
  by_cases hall : ∀ c ∈ cs, isBlank c = true
  · rw [trimChars_eq_nil.2 hall]
    exact trimChars_eq_nil.2 fun c hc => (List.mem_append.1 hc).elim (hall c) (h c)
  · have hkeep : dropBlanks (cs ++ back) = dropBlanks cs ++ back := by
      have hne : ¬ (dropBlanks cs).isEmpty = true := by rwa [List.isEmpty_iff, dropBlanks_eq_nil]
      rw [dropBlanks, List.dropWhile_append, ← dropBlanks, if_neg hne]
    have hback : ∀ c ∈ back.reverse, isBlank c = true := fun c hc => h c (List.mem_reverse.1 hc)
    rw [trimChars, hkeep, List.reverse_append, dropBlanks_append hback, trimChars]

theorem Padded.trimChars_eq {s t : String} (h : Padded s t) : trimChars t.toList = trimChars s.toList := by
  obtain ⟨front, back, hfront, hback, ht⟩ := h
  rw [ht, trimChars_append (List.all_eq_true.1 hback), trimChars, dropBlanks_append (List.all_eq_true.1 hfront),
    trimChars]

/-! ## Case -/

/-- The texts are the same but for the case of ASCII letters. -/
def Recased (s t : String) : Prop := s.toList.map foldAscii = t.toList.map foldAscii

instance (s t : String) : Decidable (Recased s t) := inferInstanceAs (Decidable (_ = _))

theorem foldAscii_eq (c : Char) : foldAscii c = c ∨ c.toNat < 128 := by
  unfold foldAscii
  split
  · rename_i h
    right
    have : c.toNat ≤ 'Z'.toNat := h.2
    exact lt_of_le_of_lt this (by decide)
  · exact .inl rfl

/-- Folding an ASCII letter makes it no blank, and does not change its upper case. -/
theorem ascii_fold {n : Nat} (h : n < 128) :
    isBlank (foldAscii (Char.ofNat n)) = isBlank (Char.ofNat n) ∧
      upperChar (foldAscii (Char.ofNat n)) = upperChar (Char.ofNat n) := by
  revert h
  revert n
  decide +kernel

theorem isBlank_foldAscii (c : Char) : isBlank (foldAscii c) = isBlank c := by
  rcases foldAscii_eq c with h | h
  · rw [h]
  · simpa using (ascii_fold h).1

theorem upperChar_foldAscii (c : Char) : upperChar (foldAscii c) = upperChar c := by
  rcases foldAscii_eq c with h | h
  · rw [h]
  · simpa using (ascii_fold h).2

theorem dropBlanks_map_foldAscii (cs : List Char) :
    dropBlanks (cs.map foldAscii) = (dropBlanks cs).map foldAscii := by
  have hblank : isBlank ∘ foldAscii = isBlank := funext isBlank_foldAscii
  rw [dropBlanks, List.dropWhile_map, hblank, ← dropBlanks]

theorem trimChars_map_foldAscii (cs : List Char) :
    trimChars (cs.map foldAscii) = (trimChars cs).map foldAscii := by
  rw [trimChars, dropBlanks_map_foldAscii, ← List.map_reverse, dropBlanks_map_foldAscii, ← List.map_reverse,
    trimChars]

/-! ## Spellings -/

/-- The texts are spellings of one code: they differ in the case of ASCII letters and in blanks at
the ends. -/
inductive Respelled : String → String → Prop
  | recased {s t : String} : Recased s t → Respelled s t
  | padded {s t : String} : Padded s t → Respelled s t
  | symm {s t : String} : Respelled s t → Respelled t s
  | trans {s t u : String} : Respelled s t → Respelled t u → Respelled s u

theorem Respelled.codeKey_eq {s t : String} (h : Respelled s t) : codeKey s = codeKey t := by
  induction h with
  | recased h => rw [codeKey, ← trimChars_map_foldAscii, h, trimChars_map_foldAscii, codeKey]
  | padded h => rw [codeKey, codeKey, h.trimChars_eq]
  | symm _ ih => exact ih.symm
  | trans _ _ ih ih' => exact ih.trans ih'

/-- The trimmed upper case of a code depends on its key only. -/
theorem upper_trim_congr {s t : String} (h : codeKey s = codeKey t) : upper (trim s) = upper (trim t) := by
  have hkey : ∀ s : String, (upper (trim s)).toList = (codeKey s).flatMap upperChar := fun s => by
    simp [upper, codeKey, List.flatMap_map, upperChar_foldAscii]
  rw [← String.toList_inj, hkey, hkey, h]

end Tariff.Text
