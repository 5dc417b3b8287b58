import Mathlib
import Tariff.Instant.Basic
import Tariff.Version.History
/-
  Tariff.Proofs.Instant.Order — instants are linearly ordered, and lists of them have a last one.

  Two instants with one stamp are the same (`stamp_injective`), so the order by stamps is linear.
  `latest?` is the greatest element of a list (`latest?_eq_some_iff`), whatever its order
  (`latest?_perm`); the latest start of a currency is an upper bound that is reached
  (`latestStart?_eq_some_iff`). Codes that share their key are codes of one currency
  (`Version.isIn_congr`).
-/

namespace Tariff

namespace Instant

theorem stamp_injective : Function.Injective stamp := by
  intro a b h
  have ha := a.minute_lt
  have hb := b.minute_lt
  have hsa := a.second_le
  have hsb := b.second_le
  have hna := a.nano_lt
  have hnb := b.nano_lt
  simp only [stamp] at h
  have hnano : a.nano = b.nano := by omega
  have hsecond : a.second = b.second := by omega
  have hminute : a.minute = b.minute := by omega
  have hday : a.day = b.day := by omega
  cases a
  cases b
  simp_all

instance : LinearOrder Instant where
  le a b := a ≤ b
  lt a b := a < b
  le_refl a := Int.le_refl a.stamp
  le_trans _ _ _ h₁ h₂ := Int.le_trans h₁ h₂
  lt_iff_le_not_ge _ _ := Int.lt_iff_le_and_not_ge
  le_antisymm _ _ h₁ h₂ := stamp_injective (Int.le_antisymm h₁ h₂)
  le_total a b := Int.le_total a.stamp b.stamp
  toDecidableLE := inferInstance
  toDecidableEq := inferInstance
  toDecidableLT := inferInstance

theorem later_eq_max (a b : Instant) : later a b = max a b := rfl

theorem latest?_eq_none_iff {ts : List Instant} : latest? ts = none ↔ ts = [] := by
  cases ts <;> simp [latest?]

theorem latest?_eq_some_iff {ts : List Instant} {t : Instant} :
    latest? ts = some t ↔ t ∈ ts ∧ ∀ u ∈ ts, u ≤ t := by
  induction ts generalizing t with
  | nil => simp [latest?]
  | cons a ts ih =>
    cases hl : latest? ts with
    | none =>
      have hnil := latest?_eq_none_iff.1 hl
      subst hnil
      simp only [latest?, Option.elim_none, Option.some.injEq, List.mem_singleton, forall_eq]
      exact ⟨fun h => ⟨h.symm, h.le⟩, fun h => h.1.symm⟩
    | some l =>
      obtain ⟨hmem, hub⟩ := ih.1 hl
      simp only [latest?, hl, Option.elim_some, Option.some.injEq, later_eq_max]
      constructor
      · intro hx
        obtain rfl := hx
        refine ⟨?_, fun u hu => ?_⟩
        · rcases max_choice a l with h | h
          · rw [h]; exact List.mem_cons_self
          · rw [h]; exact List.mem_cons_of_mem _ hmem
        · rcases List.mem_cons.1 hu with rfl | hu
          · exact le_max_left _ _
          · exact (hub u hu).trans (le_max_right _ _)
      · intro hx
        obtain ⟨ht, htop⟩ := hx
        apply le_antisymm
        · exact max_le (htop a List.mem_cons_self) (htop l (List.mem_cons_of_mem _ hmem))
        · rcases List.mem_cons.1 ht with rfl | ht
          · exact le_max_left _ _
          · exact (hub t ht).trans (le_max_right _ _)

/-- The latest instant does not depend on the order. -/
theorem latest?_perm {ts us : List Instant} (h : ts.Perm us) : latest? ts = latest? us := by
  ext t
  rw [latest?_eq_some_iff, latest?_eq_some_iff]
  simp only [h.mem_iff]

end Instant

/-- A version is in what currencies share their key. -/
theorem Version.isIn_congr {v w : Version} {a b : String} (hv : Text.codeKey v.currency = Text.codeKey w.currency)
    (hab : Text.codeKey a = Text.codeKey b) : v.isIn a = w.isIn b := by
  rw [Version.isIn, Version.isIn, Text.sameCode, Text.sameCode, hv, hab]

namespace History

theorem latestStart?_eq_none_iff {h : History} {code : String} :
    h.latestStart? code = none ↔ ∀ v ∈ h, v.isIn code = false := by
  simp [latestStart?, Instant.latest?_eq_none_iff]

theorem latestStart?_eq_some_iff {h : History} {code : String} {t : Instant} :
    h.latestStart? code = some t ↔
      (∃ v ∈ h, v.isIn code = true ∧ v.effectiveFrom = t) ∧
        ∀ v ∈ h, v.isIn code = true → v.effectiveFrom ≤ t := by
  rw [latestStart?, Instant.latest?_eq_some_iff]
  simp only [List.mem_map, List.mem_filter, and_assoc, forall_exists_index, and_imp]
  refine and_congr_right fun _ => ⟨fun top v hv hin => top _ v hv hin rfl, ?_⟩
  intro top _ v hv hin hx
  obtain rfl := hx
  exact top v hv hin

/-- Codes with one key have one latest start. -/
theorem latestStart?_congr (h : History) {a b : String} (hab : Text.codeKey a = Text.codeKey b) :
    h.latestStart? a = h.latestStart? b := by
  have hin : ∀ v : Version, v.isIn a = v.isIn b := fun v => Version.isIn_congr rfl hab
  simp only [latestStart?, hin]

end History

end Tariff
