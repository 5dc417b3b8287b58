import Mathlib
import Tariff.View.Pages
import Tariff.Proofs.Version.Listing
/-
  Tariff.Proofs.View.Latest — the order of a history on its page, and the latest starts below it.

  The versions of a price are shown from the latest start to the earliest (`pairwise_newestFirst`), and
  those of one start as they were appended (`filter_newestFirst`). So the first version of a currency that
  is shown starts when the latest of this currency does (`latestStart?_eq_first`).

  Below them is a line for each listed code that some version matches. A code that no version matches would
  have none; for ASCII codes there is no such code, and versions share a line just where they are in one
  currency (`history_page_is_in_order`).
-/

namespace Tariff

namespace History

/-! ## Newest first -/

theorem newestFirst_perm (h : History) : h.newestFirst.Perm h := List.mergeSort_perm h _

theorem newer_trans (u v w : Version) (huv : decide (v.effectiveFrom ≤ u.effectiveFrom) = true)
    (hvw : decide (w.effectiveFrom ≤ v.effectiveFrom) = true) :
    decide (w.effectiveFrom ≤ u.effectiveFrom) = true :=
  decide_eq_true ((of_decide_eq_true hvw).trans (of_decide_eq_true huv))

theorem newer_total (u v : Version) :
    (decide (v.effectiveFrom ≤ u.effectiveFrom) || decide (u.effectiveFrom ≤ v.effectiveFrom)) = true := by
  simpa using le_total v.effectiveFrom u.effectiveFrom

theorem pairwise_newestFirst (h : History) :
    h.newestFirst.Pairwise fun v w => w.effectiveFrom ≤ v.effectiveFrom :=
  (List.pairwise_mergeSort newer_trans newer_total h).imp of_decide_eq_true

/-- Versions of one start keep their order. -/
theorem filter_newestFirst (h : History) (start : Instant) :
    h.newestFirst.filter (·.effectiveFrom = start) = h.filter (·.effectiveFrom = start) := by
  have hsame : (h.filter (·.effectiveFrom = start)).Pairwise
      fun v w => decide (w.effectiveFrom ≤ v.effectiveFrom) = true := by
    refine List.pairwise_of_forall_mem_list fun v hv w hw => decide_eq_true ?_
    rw [of_decide_eq_true (List.mem_filter.1 hv).2, of_decide_eq_true (List.mem_filter.1 hw).2]
  have hsub : (h.filter (·.effectiveFrom = start)).Sublist (h.newestFirst.filter (·.effectiveFrom = start)) := by
    have := (List.sublist_mergeSort newer_trans newer_total hsame List.filter_sublist).filter
      (·.effectiveFrom = start)
    simpa [newestFirst] using this
  exact (hsub.eq_of_length ((newestFirst_perm h).filter _).length_eq.symm).symm

/-- The latest start of a currency is that of its first version in the order of the page. -/
theorem latestStart?_eq_first (h : History) (code : String) :
    h.latestStart? code = (h.newestFirst.find? (·.isIn code)).map (·.effectiveFrom) := by
  cases hfirst : h.newestFirst.find? (·.isIn code) with
  | none =>
    rw [Option.map_none, latestStart?_eq_none_iff]
    intro v hv
    simpa using List.find?_eq_none.1 hfirst v ((newestFirst_perm h).mem_iff.2 hv)
  | some v =>
    obtain ⟨hin, before, after, hsplit, hbefore⟩ := List.find?_eq_some_iff_append.1 hfirst
    have hmem : ∀ w, w ∈ h ↔ w ∈ before ++ v :: after := fun w => by rw [← hsplit, (newestFirst_perm h).mem_iff]
    have hafter : ∀ w ∈ after, w.effectiveFrom ≤ v.effectiveFrom := by
      have hall := pairwise_newestFirst h
      rw [hsplit] at hall
      exact (List.pairwise_cons.1 (List.pairwise_append.1 hall).2.1).1
    rw [Option.map_some, latestStart?_eq_some_iff]
    refine ⟨⟨v, (hmem v).2 (by simp), hin, rfl⟩, fun w hw hwin => ?_⟩
    rcases List.mem_append.1 ((hmem w).1 hw) with hw | hw
    · have := hbefore w hw
      simp [hwin] at this
    · rcases List.mem_cons.1 hw with rfl | hw
      · exact le_rfl
      · exact hafter w hw

end History

namespace View

/-! ## Latest starts -/

/-- The line of a code whose latest version starts at an instant. -/
def latestLine (code : String) (start : Instant) : String :=
  s!"{code}: latest version starts on {start.shown}."

theorem latestLines_eq (h : History) :
    latestLines h = h.listedCodes.filterMap fun code => (h.latestStart? code).map (latestLine code) := rfl

/-- Each listed code has a line, which tells the start of the first version shown that matches it. -/
theorem latestLines_listed {h : History} (hascii : ∀ v ∈ h, Text.IsAscii v.currency) :
    List.Forall₂ (fun code line => ∃ v, h.newestFirst.find? (·.isIn code) = some v ∧
      line = latestLine code v.effectiveFrom) h.listedCodes (latestLines h) := by
  have hfound : ∀ code ∈ h.listedCodes, ∃ v, h.newestFirst.find? (·.isIn code) = some v := by
    intro code hcode
    obtain ⟨v, hv, rfl⟩ := History.mem_listedCodes_iff.1 hcode
    apply Option.isSome_iff_exists.1
    rw [List.find?_isSome]
    exact ⟨v, (History.newestFirst_perm h).mem_iff.2 hv, History.isIn_listedCode (hascii v hv)⟩
  rw [latestLines_eq]
  -- the lines are made code by code, and none is left out
  generalize h.listedCodes = codes at hfound ⊢
  induction codes with
  | nil => exact .nil
  | cons code codes ih =>
    obtain ⟨v, hv⟩ := hfound code List.mem_cons_self
    have hline : (h.latestStart? code).map (latestLine code) = some (latestLine code v.effectiveFrom) := by
      rw [History.latestStart?_eq_first, hv]
      rfl
    simp only [List.filterMap_cons, hline]
    exact .cons ⟨v, hv, rfl⟩ (ih fun code hcode => hfound code (List.mem_cons_of_mem _ hcode))

/-- The versions on the page of a price are those of its history, from the latest start to the earliest, and
versions of one start are in the order of the history. Where codes are ASCII there are codes in strictly
increasing order, each the trimmed upper case of the code of a version, with one line for each. Every
version matches one of them, two versions the same one just where they are in one currency, and the line
of a code tells the start of the first version on the page that matches it. -/
theorem history_page_is_in_order (h : History) :
    h.newestFirst.Perm h ∧
      (h.newestFirst.Pairwise fun v w => w.effectiveFrom ≤ v.effectiveFrom) ∧
      (∀ start, h.newestFirst.filter (·.effectiveFrom = start) = h.filter (·.effectiveFrom = start)) ∧
      ((∀ v ∈ h, Text.IsAscii v.currency) →
        ∃ codes : List String, codes.Pairwise (· < ·) ∧
          (∀ code ∈ codes, ∃ v ∈ h, code = Text.upper (Text.trim v.currency)) ∧
          (∀ v ∈ h, ∃! code, code ∈ codes ∧ v.isIn code = true) ∧
          (∀ v ∈ h, ∀ w ∈ h, v.isIn w.currency = true ↔
            ∃ code ∈ codes, v.isIn code = true ∧ w.isIn code = true) ∧
          List.Forall₂ (fun code line => ∃ v, h.newestFirst.find? (·.isIn code) = some v ∧
            line = latestLine code v.effectiveFrom) codes (latestLines h)) := by
  refine ⟨h.newestFirst_perm, h.pairwise_newestFirst, h.filter_newestFirst, fun hascii => ?_⟩
  refine ⟨h.listedCodes, h.pairwise_listedCodes, fun code hcode => ?_,
    fun v hv => History.existsUnique_listedCode hascii hv, fun v hv w hw => ⟨fun hin => ?_, fun hboth => ?_⟩,
    latestLines_listed hascii⟩
  · obtain ⟨v, hv, hlisted⟩ := History.mem_listedCodes_iff.1 hcode
    exact ⟨v, hv, hlisted.symm⟩
  · have hown := History.isIn_listedCode (hascii w hw)
    rw [Version.isIn_congr rfl (Text.sameCode_iff.1 hown)] at hin
    exact ⟨History.listedCode w, History.mem_listedCodes_iff.2 ⟨w, hw, rfl⟩, hin, hown⟩
  · obtain ⟨code, -, hv, hw⟩ := hboth
    rwa [Version.isIn_congr rfl (Text.sameCode_iff.1 hw)]

/-- Of two versions in euros and two in dollars the later ones are told of, euros first. -/
theorem history_page_is_in_order_of_two_currencies :
    let next : Instant := { Instant.epoch with day := 1, first_le := by decide, le_last := by decide }
    let history : History := [⟨"amount_1", none, "USD", Decimal.unit 0, Instant.epoch, none⟩,
      ⟨"amount_2", none, "eur ", Decimal.unit 2, next, none⟩, ⟨"amount_3", none, "usd", Decimal.unit 2, next, none⟩,
      ⟨"amount_4", none, "EUR", Decimal.unit 2, Instant.epoch, none⟩]
    (∀ v ∈ history, Text.IsAscii v.currency) ∧
      (∃ codes : List String, codes.Pairwise (· < ·) ∧
        List.Forall₂ (fun code line => ∃ v, history.newestFirst.find? (·.isIn code) = some v ∧
          line = latestLine code v.effectiveFrom) codes (latestLines history)) ∧
      latestLines history = [latestLine "EUR" next, latestLine "USD" next] := by
  intro next history
  have hascii : ∀ v ∈ history, Text.IsAscii v.currency := by simp [history, Text.IsAscii]
  obtain ⟨codes, hincreasing, -, -, -, hlines⟩ := (history_page_is_in_order history).2.2.2 hascii
  exact ⟨hascii, ⟨codes, hincreasing, hlines⟩, by decide +kernel⟩

end View

end Tariff
