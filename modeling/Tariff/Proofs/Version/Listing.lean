import Mathlib
import Tariff.Version.History
import Tariff.Proofs.Instant.Order
import Tariff.Proofs.Text.Spelling
/-
  Tariff.Proofs.Version.Listing — the codes that versions are listed under.

  A list of codes is kept strictly increasing, so each code of the versions stands in it once
  (`pairwise_listedCodes`, `mem_listedCodes_iff`). A version is listed under its trimmed code in upper case
  and belongs to a currency by matching. For ASCII codes the two agree: a version matches a code that is
  its own trimmed upper case just where it is listed under it (`isIn_iff_listedCode_eq`). So it matches one
  of the listed codes and no other (`existsUnique_listedCode`).
-/

namespace Tariff.History

/-! ## Strictly increasing lists of codes -/

theorem mem_insertCode_iff {k code : String} {codes : List String} :
    k ∈ insertCode code codes ↔ k = code ∨ k ∈ codes := by
  induction codes with
  | nil => simp [insertCode]
  | cons c cs ih =>
    unfold insertCode
    split
    · simp
    · split
      · rename_i heq
        simp [heq]
      · simp only [List.mem_cons, ih, or_left_comm]

theorem pairwise_insertCode {codes : List String} (code : String) (h : codes.Pairwise (· < ·)) :
    (insertCode code codes).Pairwise (· < ·) := by
  induction codes with
  | nil => simp [insertCode]
  | cons c cs ih =>
    obtain ⟨hc, hcs⟩ := List.pairwise_cons.1 h
    unfold insertCode
    split
    · rename_i hlt
      refine List.pairwise_cons.2 ⟨fun k hk => ?_, h⟩
      rcases List.mem_cons.1 hk with rfl | hk
      · exact hlt
      · exact hlt.trans (hc k hk)
    · rename_i hge
      split
      · exact h
      · rename_i hne
        refine List.pairwise_cons.2 ⟨fun k hk => ?_, ih hcs⟩
        rcases mem_insertCode_iff.1 hk with rfl | hk
        · exact lt_of_le_of_ne (not_lt.1 hge) (Ne.symm hne)
        · exact hc k hk

/-- The listed codes are those of the versions. -/
theorem mem_listedCodes_iff {h : History} {code : String} :
    code ∈ h.listedCodes ↔ ∃ v ∈ h, listedCode v = code := by
  induction h with
  | nil => simp [listedCodes]
  | cons v h ih =>
    rw [listedCodes, List.foldr_cons, mem_insertCode_iff, ← listedCodes, ih]
    simp [eq_comm]

theorem pairwise_listedCodes (h : History) : h.listedCodes.Pairwise (· < ·) := by
  induction h with
  | nil => exact .nil
  | cons v h ih => exact pairwise_insertCode (listedCode v) ih

/-! ## Listing and matching -/

variable {v : Version} {code : String}

/-- The code that an ASCII code is listed under is its own trimmed upper case. -/
theorem upper_trim_listedCode (hv : Text.IsAscii v.currency) :
    Text.upper (Text.trim (listedCode v)) = listedCode v := Text.upper_trim_congr (Text.codeKey_upper_trim hv)

theorem isIn_listedCode (hv : Text.IsAscii v.currency) : v.isIn (listedCode v) = true :=
  Text.sameCode_iff.2 (Text.codeKey_upper_trim hv).symm

/-- Matching a trimmed code in upper case is being listed under it. -/
theorem isIn_iff_listedCode_eq (hv : Text.IsAscii v.currency) (hcode : Text.upper (Text.trim code) = code) :
    v.isIn code = true ↔ listedCode v = code := by
  constructor
  · intro hin
    rw [listedCode, Text.upper_trim_congr (Text.sameCode_iff.1 hin), hcode]
  · intro heq
    exact heq ▸ isIn_listedCode hv

theorem upper_trim_of_mem_listedCodes {h : History} (hascii : ∀ v ∈ h, Text.IsAscii v.currency)
    (hcode : code ∈ h.listedCodes) : Text.upper (Text.trim code) = code := by
  obtain ⟨v, hv, rfl⟩ := mem_listedCodes_iff.1 hcode
  exact upper_trim_listedCode (hascii v hv)

/-- A version matches exactly one of the codes that it is listed among. -/
theorem existsUnique_listedCode {h : History} (hascii : ∀ v ∈ h, Text.IsAscii v.currency) (hv : v ∈ h) :
    ∃! code, code ∈ h.listedCodes ∧ v.isIn code = true := by
  refine ⟨listedCode v, ⟨mem_listedCodes_iff.2 ⟨v, hv, rfl⟩, isIn_listedCode (hascii v hv)⟩, fun code hcode => ?_⟩
  have heq := (isIn_iff_listedCode_eq (hascii v hv) (upper_trim_of_mem_listedCodes hascii hcode.1)).1 hcode.2
  exact heq.symm

end Tariff.History
