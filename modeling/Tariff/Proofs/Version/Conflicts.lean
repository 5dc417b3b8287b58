import Mathlib
import Tariff.Proofs.Version.Listing
/-
  Tariff.Proofs.Version.Conflicts — the currencies with more than one active version.

  A version is active from its start on if it has no end, and stays so: time never takes an active version
  away (`Version.statusAt_active_mono`). A code is reported where two versions listed under it are active
  (`mem_multipleActive_iff`), so what is reported stays reported in any history that has all the versions
  and at any later instant (`multipleActive_mono`).

  Where codes are ASCII, versions are counted by the listed code just as they match it. The codes that are
  reported are then the trimmed codes in upper case that two active versions match, in increasing order, and
  each active version counts for one code (`multiple_active_is_exact`).
-/

namespace Tariff

/-- A version is active that has started and has no end. -/
theorem Version.statusAt_eq_active_iff {v : Version} {now : Instant} :
    v.statusAt now = .active ↔ v.effectiveTo = none ∧ v.effectiveFrom ≤ now := by
  rw [statusAt, hasEnded, ← not_lt (a := now)]
  cases v.effectiveTo with
  | none => by_cases hstart : now < v.effectiveFrom <;> simp [hstart]
  | some stop => by_cases hstop : stop ≤ now <;> by_cases hstart : now < v.effectiveFrom <;> simp [hstop, hstart]

/-- An active version stays active. -/
theorem Version.statusAt_active_mono {v : Version} {now later : Instant} (h : v.statusAt now = .active)
    (hlater : now ≤ later) : v.statusAt later = .active := by
  obtain ⟨hopen, hstart⟩ := statusAt_eq_active_iff.1 h
  exact statusAt_eq_active_iff.2 ⟨hopen, hstart.trans hlater⟩

namespace History

variable {h : History} {now : Instant} {code : String}

/-! ## Counts -/

theorem mem_activeAt_iff {v : Version} : v ∈ h.activeAt now ↔ v ∈ h ∧ v.statusAt now = .active := by
  simp [activeAt]

theorem keys_activeCounts (h : History) (now : Instant) :
    (h.activeCounts now).map (·.1) = (h.activeAt now).listedCodes := by
  simp [activeCounts, Function.comp_def]

theorem mem_activeCounts_iff {e : String × Nat} :
    e ∈ h.activeCounts now ↔
      e.1 ∈ (h.activeAt now).listedCodes ∧ e.2 = (h.activeAt now).countP (listedCode · = e.1) := by
  simp only [activeCounts, List.mem_map]
  constructor
  · rintro ⟨code, hcode, rfl⟩
    exact ⟨hcode, rfl⟩
  · rintro ⟨hcode, hcount⟩
    exact ⟨e.1, hcode, by rw [← hcount]⟩

theorem countP_activeAt (h : History) (now : Instant) (code : String) :
    (h.activeAt now).countP (listedCode · = code) =
      h.countP fun v => v.statusAt now = .active ∧ listedCode v = code := by
  rw [activeAt, List.countP_filter]
  exact List.countP_congr fun v _ => by simp [and_comm]

/-- A code is reported where two of the versions listed under it are active. -/
theorem mem_multipleActive_iff : code ∈ h.multipleActive now ↔
    2 ≤ h.countP fun v => v.statusAt now = .active ∧ listedCode v = code := by
  rw [multipleActive, List.mem_map, ← countP_activeAt]
  constructor
  · rintro ⟨e, he, rfl⟩
    obtain ⟨hmem, hmany⟩ := List.mem_filter.1 he
    rw [← (mem_activeCounts_iff.1 hmem).2]
    exact of_decide_eq_true hmany
  · intro hmany
    obtain ⟨v, hv, hlisted⟩ := List.countP_pos_iff.1 (Nat.zero_lt_of_lt hmany)
    have hcode : code ∈ (h.activeAt now).listedCodes :=
      mem_listedCodes_iff.2 ⟨v, hv, of_decide_eq_true hlisted⟩
    exact ⟨(code, _), List.mem_filter.2 ⟨mem_activeCounts_iff.2 ⟨hcode, rfl⟩, decide_eq_true hmany⟩, rfl⟩

theorem pairwise_multipleActive (h : History) (now : Instant) : (h.multipleActive now).Pairwise (· < ·) := by
  have hsub : (h.multipleActive now).Sublist ((h.activeCounts now).map (·.1)) := List.filter_sublist.map _
  rw [keys_activeCounts] at hsub
  exact (pairwise_listedCodes _).sublist hsub

/-- What is reported stays reported when versions are added and time passes. -/
theorem multipleActive_mono {more : History} {later : Instant} (hmore : h.Subperm more) (hlater : now ≤ later) :
    h.multipleActive now ⊆ more.multipleActive later := by
  intro code hcode
  rw [mem_multipleActive_iff] at hcode ⊢
  calc 2 ≤ h.countP fun v => v.statusAt now = .active ∧ listedCode v = code := hcode
    _ ≤ h.countP fun v => v.statusAt later = .active ∧ listedCode v = code :=
      List.countP_mono_left fun v _ hv => by
        have hv := of_decide_eq_true hv
        exact decide_eq_true ⟨Version.statusAt_active_mono hv.1 hlater, hv.2⟩
    _ ≤ more.countP fun v => v.statusAt later = .active ∧ listedCode v = code := hmore.countP_le _

/-! ## ASCII codes -/

/-- Counting what is listed under a code is counting what matches it. -/
theorem countP_listedCode (hascii : ∀ v ∈ h, Text.IsAscii v.currency)
    (hcode : Text.upper (Text.trim code) = code) (now : Instant) :
    (h.countP fun v => v.statusAt now = .active ∧ listedCode v = code) =
      h.countP fun v => v.isIn code ∧ v.statusAt now = .active :=
  List.countP_congr fun v hv => by
    rw [decide_eq_true_iff, decide_eq_true_iff, isIn_iff_listedCode_eq (hascii v hv) hcode, and_comm]

/-- Where codes are ASCII, the codes that are reported are the trimmed codes in upper case that at least two
versions without an end match that have started, in strictly increasing order. An active version counts
for the one code that it matches, and a code for all active versions that match it. Whatever is reported
stays reported in a history that has all these versions and more, and later. -/
theorem multiple_active_is_exact (h : History) (now : Instant) (hascii : ∀ v ∈ h, Text.IsAscii v.currency) :
    (h.multipleActive now).Pairwise (· < ·) ∧
      (∀ code, code ∈ h.multipleActive now ↔ Text.upper (Text.trim code) = code ∧
        2 ≤ h.countP fun v => v.isIn code ∧ v.effectiveTo = none ∧ v.effectiveFrom ≤ now) ∧
      ((h.activeCounts now).map (·.1)).Pairwise (· < ·) ∧
      (∀ v ∈ h, v.statusAt now = .active → ∃! e, e ∈ h.activeCounts now ∧ v.isIn e.1 = true) ∧
      (∀ e ∈ h.activeCounts now, e.2 = h.countP fun v => v.isIn e.1 ∧ v.statusAt now = .active) ∧
      ∀ (more : History) (later : Instant), h.Subperm more → now ≤ later →
        h.multipleActive now ⊆ more.multipleActive later := by
  have hactive : ∀ v ∈ h.activeAt now, Text.IsAscii v.currency := fun v hv => hascii v (mem_activeAt_iff.1 hv).1
  refine ⟨pairwise_multipleActive h now, fun code => ?_, keys_activeCounts h now ▸ pairwise_listedCodes _,
    fun v hv hstatus => ?_, fun e he => ?_, fun more later hmore hlater => multipleActive_mono hmore hlater⟩
  · have hmatch : ∀ hcode : Text.upper (Text.trim code) = code,
        (h.countP fun v => v.statusAt now = .active ∧ listedCode v = code) =
          h.countP fun v => v.isIn code ∧ v.effectiveTo = none ∧ v.effectiveFrom ≤ now := fun hcode => by
      rw [countP_listedCode hascii hcode]
      simp only [Version.statusAt_eq_active_iff]
    rw [mem_multipleActive_iff]
    constructor
    · intro hmany
      obtain ⟨v, hv, hlisted⟩ := List.countP_pos_iff.1 (Nat.zero_lt_of_lt hmany)
      have hcode : Text.upper (Text.trim code) = code :=
        (of_decide_eq_true hlisted).2 ▸ upper_trim_listedCode (hascii v hv)
      exact ⟨hcode, hmatch hcode ▸ hmany⟩
    · rintro ⟨hcode, hmany⟩
      exact hmatch hcode ▸ hmany
  · obtain ⟨code, ⟨hcode, hin⟩, hunique⟩ := existsUnique_listedCode hactive (mem_activeAt_iff.2 ⟨hv, hstatus⟩)
    refine ⟨(code, (h.activeAt now).countP (listedCode · = code)), ⟨mem_activeCounts_iff.2 ⟨hcode, rfl⟩, hin⟩,
      fun e he => ?_⟩
    obtain ⟨hkey, hcount⟩ := mem_activeCounts_iff.1 he.1
    obtain rfl := hunique e.1 ⟨hkey, he.2⟩
    exact Prod.ext rfl hcount
  · obtain ⟨hkey, hcount⟩ := mem_activeCounts_iff.1 he
    rw [hcount, countP_activeAt, countP_listedCode hascii (upper_trim_of_mem_listedCodes hactive hkey)]

/-- Dollars and euros are told apart whatever the spelling, and a price of two open versions in dollars keeps
its warning. -/
theorem multiple_active_is_exact_in_dollars :
    let first : Version := ⟨"amount_1", none, "usd", Decimal.unit 0, Instant.epoch, none⟩
    let again : Version := ⟨"amount_2", none, " USD", Decimal.unit 2, Instant.epoch, none⟩
    let euro : Version := ⟨"amount_3", none, "EUR", Decimal.unit 2, Instant.epoch, none⟩
    let later : Instant := { Instant.epoch with day := 1, first_le := by decide, le_last := by decide }
    (∀ v ∈ [first, euro, again], Text.IsAscii v.currency) ∧
      "USD" ∈ History.multipleActive [first, euro, again] Instant.epoch ∧
      "EUR" ∉ History.multipleActive [first, euro, again] Instant.epoch ∧
      "USD" ∈ History.multipleActive [euro, again, euro, first] later := by
  intro first again euro later
  have hascii : ∀ v ∈ [first, euro, again], Text.IsAscii v.currency := by simp [first, again, euro, Text.IsAscii]
  obtain ⟨-, hreported, -, -, -, hkept⟩ := multiple_active_is_exact [first, euro, again] Instant.epoch hascii
  have hdollars : "USD" ∈ History.multipleActive [first, euro, again] Instant.epoch :=
    (hreported "USD").2 (by decide +kernel)
  have hmore : [first, euro, again].Subperm [euro, again, euro, first] := by decide +kernel
  exact ⟨hascii, hdollars, fun heuros => absurd ((hreported "EUR").1 heuros).2 (by decide +kernel),
    hkept _ later hmore (by decide +kernel) hdollars⟩

end History

end Tariff
