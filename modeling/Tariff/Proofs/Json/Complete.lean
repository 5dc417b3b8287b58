import Mathlib
import Tariff.Json.Draft
/-
  Tariff.Proofs.Json.Complete — drafts that have a value.

  A draft of which there is a value is complete (`wellFormed_of_valueWithin?`). The value of a text is
  an array where the text is one, of which every item has a value (`readValue?_eq_array_iff`).
-/

namespace Tariff

namespace JsonDraft

mutual

/-- A draft that has a value is complete. -/
theorem wellFormed_of_valueWithin? {l : Nat} {v : Json} :
    ∀ {d : JsonDraft}, d.valueWithin? l = some v → d.wellFormed = true
  | .null, _ | .bool _, _ | .number _, _ | .string _, _ => rfl
  | .array items closed, h => by
    simp only [valueWithin?] at h
    split at h
    · cases h
    · rename_i hclosed
      obtain ⟨vs, hvs, -⟩ := Option.map_eq_some_iff.1 h
      simp only [Bool.or_eq_true, Bool.not_eq_true', not_or, Bool.not_eq_false] at hclosed
      simp [wellFormed, allWellFormed_of_itemsWithin? hvs, hclosed.2]
  | .object members closed, h => by
    simp only [valueWithin?] at h
    split at h
    · cases h
    · rename_i hclosed
      obtain ⟨ms, hms, -⟩ := Option.map_eq_some_iff.1 h
      simp only [Bool.or_eq_true, Bool.not_eq_true', not_or, Bool.not_eq_false] at hclosed
      simp [wellFormed, allMembersWellFormed_of_membersWithin? hms, hclosed.2]
  | .broken, h => by simp [valueWithin?] at h

theorem allWellFormed_of_itemsWithin? {l : Nat} {vs : List Json} :
    ∀ {ds : List JsonDraft}, itemsWithin? l ds = some vs → allWellFormed ds = true
  | [], _ => rfl
  | d :: ds, h => by
    simp only [itemsWithin?, Option.bind_eq_bind, Option.bind_eq_some_iff] at h
    obtain ⟨v, hv, vs', hvs, -⟩ := h
    simp [allWellFormed, wellFormed_of_valueWithin? hv, allWellFormed_of_itemsWithin? hvs]

theorem allMembersWellFormed_of_membersWithin? {l : Nat} {ms : List (String × Json)} :
    ∀ {ds : List (Option String × JsonDraft)}, membersWithin? l ds = some ms → allMembersWellFormed ds = true
  | [], _ => rfl
  | (key, d) :: ds, h => by
    simp only [membersWithin?, Option.bind_eq_bind, Option.bind_eq_some_iff] at h
    obtain ⟨k, -, v, hv, vs', hvs, -⟩ := h
    simp [allMembersWellFormed, wellFormed_of_valueWithin? hv, allMembersWellFormed_of_membersWithin? hvs]

end

theorem allMembersWellFormed_iff {ms : List (Option String × JsonDraft)} :
    allMembersWellFormed ms = true ↔ ∀ m ∈ ms, m.2.wellFormed = true := by
  induction ms with
  | nil => simp [allMembersWellFormed]
  | cons m ms ih => simp [allMembersWellFormed, ih]

theorem readValue?_eq_array_iff {body : String} {vs : List Json} :
    readValue? body = some (.array vs) ↔ ∃ items, ofText body = (.array items true, true) ∧
      itemsWithin? (maxLevels - 1) items = some vs := by
  unfold readValue?
  rcases ofText body with ⟨draft, _ | _⟩
  · simp
  · cases draft with
    | array items closed => cases closed <;> simp [valueWithin?, maxLevels]
    | object members closed => cases closed <;> simp [valueWithin?, maxLevels]
    | _ => simp [valueWithin?]

theorem itemsWithin?_eq_nil_iff {l : Nat} {items : List JsonDraft} :
    itemsWithin? l items = some [] ↔ items = [] := by
  cases items <;> simp [itemsWithin?, Option.bind_eq_some_iff]

theorem itemsWithin?_eq_singleton_iff {l : Nat} {items : List JsonDraft} {v : Json} :
    itemsWithin? l items = some [v] ↔ ∃ draft, items = [draft] ∧ draft.valueWithin? l = some v := by
  cases items with
  | nil => simp [itemsWithin?]
  | cons draft items =>
    have hnil : itemsWithin? l items = some [] ↔ items = [] := itemsWithin?_eq_nil_iff
    simp only [itemsWithin?, Option.bind_eq_bind, Option.bind_eq_some_iff, Option.some.injEq, List.cons.injEq]
    constructor
    · intro hx
      obtain ⟨w, hw, ws, hws, rfl, rfl⟩ := hx
      exact ⟨draft, ⟨rfl, hnil.1 hws⟩, hw⟩
    · intro hx
      obtain ⟨draft', ⟨rfl, hitems⟩, hw⟩ := hx
      exact ⟨v, hw, [], hnil.2 hitems, rfl, rfl⟩

end JsonDraft

end Tariff
