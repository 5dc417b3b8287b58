import Mathlib
import Tariff.Text.Blank
import Tariff.Text.Upper
/-
  Tariff.Proofs.Text.Codes — trimming, and when two codes match.

  A text is trimmed when neither end is blank (`Trimmed`). Trimming gives such a text
  (`trimmed_trimChars`) and leaves one alone (`trimChars_eq_self`), so a code matches whatever it
  matches trimmed (`codeKey_trim`). Matching is sharing a `codeKey`: an equivalence. The trimmed
  upper case of an ASCII code, under which a currency is listed and submitted, matches the code
  (`codeKey_upper_trim`).
-/

namespace Tariff.Text

/-! ## Trimming -/

/-- Neither end of the text is blank. -/
def Trimmed (cs : List Char) : Prop :=
  (∀ c, cs.head? = some c → isBlank c = false) ∧ ∀ c, cs.getLast? = some c → isBlank c = false

theorem head_dropBlanks (cs : List Char) {c : Char} (h : (dropBlanks cs).head? = some c) :
    isBlank c = false := by
  have := List.head?_dropWhile_not isBlank cs
  unfold dropBlanks at h
  simpa [h] using this

theorem dropBlanks_eq_self {cs : List Char} (h : ∀ c, cs.head? = some c → isBlank c = false) :
    dropBlanks cs = cs := by
  cases cs with
  | nil => rfl
  | cons c cs => simp [dropBlanks, h c rfl]

theorem dropBlanks_suffix (cs : List Char) : dropBlanks cs <:+ cs := List.dropWhile_suffix _

theorem dropBlanks_eq_nil {cs : List Char} : dropBlanks cs = [] ↔ ∀ c ∈ cs, isBlank c = true := by
  simp [dropBlanks]

/-- What trimming leaves is a beginning of what dropping the blanks in front leaves. -/
theorem trimChars_prefix_dropBlanks (cs : List Char) : trimChars cs <+: dropBlanks cs := by
  have := dropBlanks_suffix (dropBlanks cs).reverse
  rw [← List.reverse_prefix] at this
  simpa [trimChars] using this

theorem trimmed_trimChars (cs : List Char) : Trimmed (trimChars cs) := by
  refine ⟨fun c h => ?_, fun c h => ?_⟩
  · obtain ⟨rest, hrest⟩ := trimChars_prefix_dropBlanks cs
    apply head_dropBlanks cs
    rw [← hrest, List.head?_append, h]
    rfl
  · apply head_dropBlanks (dropBlanks cs).reverse
    simpa [trimChars] using h

theorem trimChars_eq_self {cs : List Char} (h : Trimmed cs) : trimChars cs = cs := by
  have hback : ∀ c, cs.reverse.head? = some c → isBlank c = false := by simpa using h.2
  simp [trimChars, dropBlanks_eq_self h.1, dropBlanks_eq_self hback]

@[simp] theorem trimChars_trimChars (cs : List Char) : trimChars (trimChars cs) = trimChars cs :=
  trimChars_eq_self (trimmed_trimChars cs)

@[simp] theorem toList_trim (s : String) : (trim s).toList = trimChars s.toList := by simp [trim]

theorem trimChars_eq_nil {cs : List Char} : trimChars cs = [] ↔ ∀ c ∈ cs, isBlank c = true := by
  have back : trimChars cs = [] ↔ ∀ c ∈ dropBlanks cs, isBlank c = true := by
    rw [trimChars, List.reverse_eq_nil_iff, dropBlanks_eq_nil]
    simp
  rw [back]
  constructor
  · intro h
    have hnil : dropBlanks (dropBlanks cs) = [] := dropBlanks_eq_nil.2 h
    rw [dropBlanks_eq_self fun _ => head_dropBlanks cs] at hnil
    exact dropBlanks_eq_nil.1 hnil
  · exact fun h c hc => h c ((dropBlanks_suffix cs).subset hc)

/-- A text of blanks is one of which trimming leaves nothing. -/
theorem isBlankText_iff (s : String) : isBlankText s = true ↔ trim s = "" := by
  rw [← String.toList_inj, toList_trim, isBlankText, List.all_eq_true]
  exact trimChars_eq_nil.symm

@[simp] theorem trim_trim (s : String) : trim (trim s) = trim s := by
  rw [← String.toList_inj]
  simp

/-! ## Matching -/

@[simp] theorem codeKey_trim (s : String) : codeKey (trim s) = codeKey s := by simp [codeKey]

/-- A blank text has no key. -/
theorem codeKey_eq_nil {s : String} : codeKey s = [] ↔ trim s = "" := by
  rw [codeKey, List.map_eq_nil_iff, ← toList_trim, String.toList_eq_nil_iff]

theorem sameCode_iff {a b : String} : sameCode a b = true ↔ codeKey a = codeKey b := by
  simp [sameCode]

@[simp] theorem sameCode_trim_right (a b : String) : sameCode a (trim b) = sameCode a b := by
  simp [sameCode]

/-- Codes that match a third one match the same codes. -/
theorem sameCode_congr {a b : String} (h : sameCode a b = true) (c : String) :
    sameCode c a = sameCode c b := by
  simp [sameCode, sameCode_iff.1 h]

/-! ## Upper case -/

/-- A text of ASCII characters. -/
def IsAscii (s : String) : Prop := ∀ c ∈ s.toList, c.toNat < 128

theorem ascii_upper {n : Nat} (h : n < 128) :
    foldAscii (upperAscii (Char.ofNat n)) = foldAscii (Char.ofNat n) ∧
      isBlank (upperAscii (Char.ofNat n)) = isBlank (Char.ofNat n) := by
  revert h
  revert n
  decide

theorem foldAscii_upperAscii {c : Char} (h : c.toNat < 128) : foldAscii (upperAscii c) = foldAscii c := by
  simpa using (ascii_upper h).1

theorem isBlank_upperAscii {c : Char} (h : c.toNat < 128) : isBlank (upperAscii c) = isBlank c := by
  simpa using (ascii_upper h).2

theorem flatMap_upperChar {cs : List Char} (h : ∀ c ∈ cs, c.toNat < 128) :
    cs.flatMap upperChar = cs.map upperAscii := by
  rw [List.map_eq_flatMap]
  apply List.flatMap_congr
  intro c hc
  simp [upperChar, h c hc]

theorem trimChars_subset (cs : List Char) : trimChars cs ⊆ cs :=
  fun _ h => (dropBlanks_suffix cs).subset ((trimChars_prefix_dropBlanks cs).subset h)

theorem mem_dropBlanks {cs : List Char} {c : Char} (h : c ∈ cs) (hc : isBlank c = false) : c ∈ dropBlanks cs := by
  rw [← List.takeWhile_append_dropWhile (p := isBlank) (l := cs)] at h
  refine (List.mem_append.1 h).resolve_left fun hfront => ?_
  rw [List.mem_takeWhile_imp hfront] at hc
  cases hc

/-- Trimming takes nothing but blanks. -/
theorem mem_trimChars {cs : List Char} {c : Char} (h : c ∈ cs) (hc : isBlank c = false) : c ∈ trimChars cs := by
  rw [trimChars, List.mem_reverse]
  exact mem_dropBlanks (List.mem_reverse.2 (mem_dropBlanks h hc)) hc

/-- Upper-casing keeps the ends of an ASCII text. -/
theorem Trimmed.map_upperAscii {cs : List Char} (h : Trimmed cs) (ha : ∀ c ∈ cs, c.toNat < 128) :
    Trimmed (cs.map upperAscii) := by
  refine ⟨fun c hc => ?_, fun c hc => ?_⟩
  · rw [List.head?_map] at hc
    obtain ⟨d, hd, rfl⟩ := Option.map_eq_some_iff.1 hc
    rw [isBlank_upperAscii (ha d (List.mem_of_mem_head? hd))]
    exact h.1 d hd
  · rw [List.getLast?_map] at hc
    obtain ⟨d, hd, rfl⟩ := Option.map_eq_some_iff.1 hc
    rw [isBlank_upperAscii (ha d (List.mem_of_mem_getLast? hd))]
    exact h.2 d hd

/-- The trimmed upper case of an ASCII code matches what the code matches. -/
theorem codeKey_upper_trim {s : String} (h : IsAscii s) : codeKey (upper (trim s)) = codeKey s := by
  have ha : ∀ c ∈ trimChars s.toList, c.toNat < 128 := fun c hc => h c (trimChars_subset _ hc)
  have htrim := (trimmed_trimChars s.toList).map_upperAscii ha
  have hlist : (upper (trim s)).toList = (trimChars s.toList).map upperAscii := by
    simp [upper, flatMap_upperChar ha]
  rw [codeKey, hlist, trimChars_eq_self htrim, List.map_map, codeKey]
  exact List.map_congr_left fun c hc => foldAscii_upperAscii (ha c hc)

end Tariff.Text
