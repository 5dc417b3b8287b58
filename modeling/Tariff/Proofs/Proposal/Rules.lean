import Mathlib
import Tariff.Proposal.Gate
import Tariff.Proofs.Currency.Named
import Tariff.Proofs.Decimal.Value
import Tariff.Proofs.Instant.Order
/-
  Tariff.Proofs.Proposal.Rules — the gate decides the rules for proposals.

  The rules are stated without the gate: `Keeps` says that a proposal keeps all of them, for the
  currency, the amount and the start that it names; `Breaks` says which reason there is against a
  field, the first rule of the field that fails. Rules that need the currency apply exactly when
  the code names one, whatever the other fields do.

  Main statements:
  - `validate_decides`: a proposal is accepted iff it keeps the rules, as what it names; any other
    is refused with every reason there is, at most one per field, in the order of the fields, and
    at least one.
  - `validate_eq_ok_iff` and `mem_of_validate_eq_error` are its two halves for later use.
-/

namespace Tariff

namespace Proposal

open Currency (Named)

/-- The proposal keeps every rule, and this is the version that it names. -/
structure Keeps (p : Proposal) (currencies : List Currency) (history : History) (now : Instant)
    (c : Currency) (amount : Decimal) (start : Instant) : Prop where
  named : Named currencies p.currency c
  amount_typed : readAmount? p.amount = some amount
  positive : 0 < amount.value
  precise : amount.FitsPlaces c.places
  start_typed : Instant.readTyped? p.effectiveFrom = some start
  not_past : now ≤ start
  after_all : ∀ v ∈ history, v.isIn c.code = true → v.effectiveFrom < start

/-- What is accepted of a currency, an amount and a start. -/
def acceptanceOf (c : Currency) (amount : Decimal) (start now : Instant) : Acceptance :=
  ⟨Text.upper (Text.trim c.code), amount, start, now < start⟩

/-- There is this reason against a field of the proposal: no rule of the field before it fails. -/
inductive Breaks (p : Proposal) (currencies : List Currency) (history : History) (now : Instant) :
    Rejection → Prop
  | currencyRequired : Text.trim p.currency = "" → Breaks p currencies history now .currencyRequired
  | currencyUnknown : Text.trim p.currency ≠ "" →
      (∀ c ∈ currencies, Text.sameCode c.code p.currency = false) →
      Breaks p currencies history now (.currencyUnknown (Text.upper (Text.trim p.currency)))
  | amountRequired : readAmount? p.amount = none → Breaks p currencies history now .amountRequired
  | amountNotPositive {amount : Decimal} : readAmount? p.amount = some amount → amount.value ≤ 0 →
      Breaks p currencies history now .amountNotPositive
  | amountExceedsPrecision {amount : Decimal} {c : Currency} : readAmount? p.amount = some amount →
      0 < amount.value → Named currencies p.currency c → ¬ amount.FitsPlaces c.places →
      Breaks p currencies history now (.amountExceedsPrecision c.places)
  | effectiveFromRequired : Instant.readTyped? p.effectiveFrom = none →
      Breaks p currencies history now .effectiveFromRequired
  | effectiveFromInPast {start : Instant} : Instant.readTyped? p.effectiveFrom = some start →
      start < now → Breaks p currencies history now .effectiveFromInPast
  /-- `last` is a version in the currency, and none of them starts after it. -/
  | effectiveFromOverlaps {start : Instant} {c : Currency} {last : Version} :
      Instant.readTyped? p.effectiveFrom = some start → now ≤ start →
      Named currencies p.currency c → last ∈ history → last.isIn c.code = true →
      (∀ v ∈ history, v.isIn c.code = true → v.effectiveFrom ≤ last.effectiveFrom) →
      start ≤ last.effectiveFrom →
      Breaks p currencies history now (.effectiveFromOverlaps last.effectiveFrom)

variable {p : Proposal} {currencies : List Currency} {history : History} {now : Instant}

/-! ## The currency -/

theorem judgeCurrency_cases (currencies : List Currency) (typed : String) :
    (Text.trim typed = "" ∧ judgeCurrency currencies typed = .error .currencyRequired) ∨
      (Text.trim typed ≠ "" ∧ (∀ c ∈ currencies, Text.sameCode c.code typed = false) ∧
        judgeCurrency currencies typed = .error (.currencyUnknown (Text.upper (Text.trim typed)))) ∨
      ∃ c, Named currencies typed c ∧ judgeCurrency currencies typed = .ok c := by
  by_cases he : Text.trim typed = ""
  · exact Or.inl ⟨he, by simp [judgeCurrency, he]⟩
  · right
    cases hres : Currency.resolve? currencies typed with
    | none =>
      exact Or.inl ⟨he, (Currency.resolve?_eq_none_iff he).1 hres,
        by simp [judgeCurrency, he, Currency.resolve?_trim, hres]⟩
    | some c =>
      exact Or.inr ⟨c, Currency.resolve?_eq_some_iff.1 hres,
        by simp [judgeCurrency, he, Currency.resolve?_trim, hres]⟩

theorem judgeCurrency_eq_ok_iff {typed : String} {c : Currency} :
    judgeCurrency currencies typed = .ok c ↔ Named currencies typed c := by
  rcases judgeCurrency_cases currencies typed with ⟨he, hj⟩ | ⟨he, hall, hj⟩ | ⟨d, hd, hj⟩
  · simp [hj, Named, he]
  · rw [hj, ← Currency.resolve?_eq_some_iff, (Currency.resolve?_eq_none_iff he).2 hall]
    simp
  · rw [hj, Except.ok.injEq]
    exact ⟨fun h => h ▸ hd, fun h => hd.unique h⟩

theorem judgeCurrency_toOption (typed : String) :
    (judgeCurrency currencies typed).toOption = Currency.resolve? currencies typed := by
  ext c
  rw [Currency.resolve?_eq_some_iff, ← judgeCurrency_eq_ok_iff]
  cases judgeCurrency currencies typed <;> simp [Except.toOption]

theorem judgeCurrency_eq_error_iff (history : History) (now : Instant) {r : Rejection} :
    judgeCurrency currencies p.currency = .error r ↔
      p.Breaks currencies history now r ∧ r.field = .currency := by
  constructor
  · intro h
    rcases judgeCurrency_cases currencies p.currency with ⟨he, hj⟩ | ⟨he, hall, hj⟩ | ⟨d, hd, hj⟩
    · rw [hj] at h
      cases h
      exact ⟨.currencyRequired he, rfl⟩
    · rw [hj] at h
      cases h
      exact ⟨.currencyUnknown he hall, rfl⟩
    · rw [hj] at h
      cases h
  · intro hx
    obtain ⟨hr, hf⟩ := hx
    cases hr with
    | currencyRequired he => simp [judgeCurrency, he]
    | currencyUnknown he hall =>
      simp [judgeCurrency, he, Currency.resolve?_trim, (Currency.resolve?_eq_none_iff he).2 hall]
    | _ => cases hf

/-! ## The amount -/

theorem judgeAmount_cases (currency : Option Currency) (typed : String) :
    (readAmount? typed = none ∧ judgeAmount currency typed = .error .amountRequired) ∨
      ∃ amount, readAmount? typed = some amount ∧
        ((amount.value ≤ 0 ∧ judgeAmount currency typed = .error .amountNotPositive) ∨
          (0 < amount.value ∧ ∃ c, currency = some c ∧ ¬ amount.FitsPlaces c.places ∧
            judgeAmount currency typed = .error (.amountExceedsPrecision c.places)) ∨
          (0 < amount.value ∧ (∀ c, currency = some c → amount.FitsPlaces c.places) ∧
            judgeAmount currency typed = .ok amount)) := by
  cases hread : readAmount? typed with
  | none => exact Or.inl ⟨rfl, by simp [judgeAmount, hread]⟩
  | some amount =>
    refine Or.inr ⟨amount, rfl, ?_⟩
    by_cases hpos : amount.isPositive = true
    · right
      have hvalue := amount.isPositive_iff.1 hpos
      cases currency with
      | none => exact Or.inr ⟨hvalue, by simp, by simp [judgeAmount, hread, hpos]⟩
      | some c =>
        have hfits := amount.scale_normalized_le_iff c.places
        by_cases hscale : amount.normalized.scale ≤ c.places
        · refine Or.inr ⟨hvalue, fun d hd => ?_, by simp [judgeAmount, hread, hpos, hscale]⟩
          cases hd
          exact hfits.1 hscale
        · exact Or.inl ⟨hvalue, c, rfl, fun h => hscale (hfits.2 h),
            by simp [judgeAmount, hread, hpos, not_le.1 hscale]⟩
    · have hvalue : amount.value ≤ 0 := not_lt.1 fun h => hpos (amount.isPositive_iff.2 h)
      exact Or.inl ⟨hvalue, by simp [judgeAmount, hread, hpos]⟩

theorem judgeAmount_eq_ok_iff {currency : Option Currency} {typed : String} {amount : Decimal} :
    judgeAmount currency typed = .ok amount ↔ readAmount? typed = some amount ∧ 0 < amount.value ∧
      ∀ c, currency = some c → amount.FitsPlaces c.places := by
  rcases judgeAmount_cases currency typed with
    ⟨hread, hj⟩ | ⟨v, hread, ⟨hv, hj⟩ | ⟨hv, c, rfl, hfits, hj⟩ | ⟨hv, hfits, hj⟩⟩
  · simp [hj, hread]
  · simp only [hj, hread, reduceCtorEq, Option.some.injEq, false_iff]
    intro hx
    obtain ⟨rfl, hpos, -⟩ := hx
    exact absurd hpos (not_lt.2 hv)
  · simp only [hj, hread, reduceCtorEq, Option.some.injEq, false_iff]
    intro hx
    obtain ⟨rfl, -, hall⟩ := hx
    exact hfits (hall c rfl)
  · simp only [hj, hread, Except.ok.injEq, Option.some.injEq]
    constructor
    · intro hx
      obtain rfl := hx
      exact ⟨rfl, hv, hfits⟩
    · exact fun h => h.1

theorem judgeAmount_eq_error_iff (history : History) (now : Instant) {r : Rejection} :
    judgeAmount (Currency.resolve? currencies p.currency) p.amount = .error r ↔
      p.Breaks currencies history now r ∧ r.field = .amount := by
  constructor
  · intro h
    rcases judgeAmount_cases (Currency.resolve? currencies p.currency) p.amount with
      ⟨hread, hj⟩ | ⟨v, hread, ⟨hv, hj⟩ | ⟨hv, c, hc, hfits, hj⟩ | ⟨hv, hfits, hj⟩⟩
    · rw [hj] at h
      cases h
      exact ⟨.amountRequired hread, rfl⟩
    · rw [hj] at h
      cases h
      exact ⟨.amountNotPositive hread hv, rfl⟩
    · rw [hj] at h
      cases h
      exact ⟨.amountExceedsPrecision hread hv (Currency.resolve?_eq_some_iff.1 hc) hfits, rfl⟩
    · rw [hj] at h
      cases h
  · intro hx
    obtain ⟨hr, hf⟩ := hx
    cases hr with
    | amountRequired hread => simp [judgeAmount, hread]
    | amountNotPositive hread hv =>
      rename_i amount
      have hpos : ¬ amount.isPositive = true := fun h => absurd (amount.isPositive_iff.1 h) (not_lt.2 hv)
      simp [judgeAmount, hread, hpos]
    | amountExceedsPrecision hread hv hc hfits =>
      rename_i amount c
      have hscale : c.places < amount.normalized.scale :=
        not_le.1 fun h => hfits ((amount.scale_normalized_le_iff c.places).1 h)
      simp [judgeAmount, hread, amount.isPositive_iff.2 hv, Currency.resolve?_eq_some_iff.2 hc, hscale]
    | _ => cases hf

/-! ## The start -/

theorem judgeStart_cases (currency : Option Currency) (history : History) (now : Instant) (typed : String) :
    (Instant.readTyped? typed = none ∧ judgeStart currency history now typed = .error .effectiveFromRequired) ∨
      ∃ start, Instant.readTyped? typed = some start ∧
        ((start < now ∧ judgeStart currency history now typed = .error .effectiveFromInPast) ∨
          (now ≤ start ∧ ∃ c latest, currency = some c ∧ history.latestStart? c.code = some latest ∧
            start ≤ latest ∧ judgeStart currency history now typed = .error (.effectiveFromOverlaps latest)) ∨
          (now ≤ start ∧
            (∀ c, currency = some c → ∀ v ∈ history, v.isIn c.code = true → v.effectiveFrom < start) ∧
            judgeStart currency history now typed = .ok start)) := by
  cases hread : Instant.readTyped? typed with
  | none => exact Or.inl ⟨rfl, by simp [judgeStart, hread]⟩
  | some start =>
    refine Or.inr ⟨start, rfl, ?_⟩
    by_cases hpast : start < now
    · exact Or.inl ⟨hpast, by simp [judgeStart, hread, hpast]⟩
    · right
      have hnow := not_lt.1 hpast
      cases currency with
      | none => exact Or.inr ⟨hnow, by simp, by simp [judgeStart, hread, hpast]⟩
      | some c =>
        cases hl : history.latestStart? c.code with
        | none =>
          have hnone := History.latestStart?_eq_none_iff.1 hl
          refine Or.inr ⟨hnow, fun d hd v hv hin => ?_, by simp [judgeStart, hread, hpast, hl]⟩
          cases hd
          rw [hnone v hv] at hin
          cases hin
        | some latest =>
          by_cases hle : start ≤ latest
          · exact Or.inl ⟨hnow, c, latest, rfl, hl, hle, by simp [judgeStart, hread, hpast, hl, hle]⟩
          · refine Or.inr ⟨hnow, fun d hd v hv hin => ?_, by simp [judgeStart, hread, hpast, hl, hle]⟩
            cases hd
            exact ((History.latestStart?_eq_some_iff.1 hl).2 v hv hin).trans_lt (not_le.1 hle)

theorem judgeStart_eq_ok_iff {currency : Option Currency} {typed : String} {start : Instant} :
    judgeStart currency history now typed = .ok start ↔ Instant.readTyped? typed = some start ∧ now ≤ start ∧
      ∀ c, currency = some c → ∀ v ∈ history, v.isIn c.code = true → v.effectiveFrom < start := by
  rcases judgeStart_cases currency history now typed with
    ⟨hread, hj⟩ | ⟨t, hread, ⟨ht, hj⟩ | ⟨ht, c, latest, rfl, hl, hle, hj⟩ | ⟨ht, hafter, hj⟩⟩
  · simp [hj, hread]
  · simp only [hj, hread, reduceCtorEq, Option.some.injEq, false_iff]
    intro hx
    obtain ⟨rfl, hnow, -⟩ := hx
    exact absurd ht (not_lt.2 hnow)
  · simp only [hj, hread, reduceCtorEq, Option.some.injEq, false_iff]
    intro hx
    obtain ⟨rfl, -, hafter⟩ := hx
    obtain ⟨⟨v, hv, hin, rfl⟩, -⟩ := History.latestStart?_eq_some_iff.1 hl
    exact absurd (hafter c rfl v hv hin) (not_lt.2 hle)
  · simp only [hj, hread, Except.ok.injEq, Option.some.injEq]
    constructor
    · intro hx
      obtain rfl := hx
      exact ⟨rfl, ht, hafter⟩
    · exact fun h => h.1

theorem judgeStart_eq_error_iff {r : Rejection} :
    judgeStart (Currency.resolve? currencies p.currency) history now p.effectiveFrom = .error r ↔
      p.Breaks currencies history now r ∧ r.field = .effectiveFrom := by
  constructor
  · intro h
    rcases judgeStart_cases (Currency.resolve? currencies p.currency) history now p.effectiveFrom with
      ⟨hread, hj⟩ | ⟨t, hread, ⟨ht, hj⟩ | ⟨ht, c, latest, hc, hl, hle, hj⟩ | ⟨ht, hafter, hj⟩⟩
    · rw [hj] at h
      cases h
      exact ⟨.effectiveFromRequired hread, rfl⟩
    · rw [hj] at h
      cases h
      exact ⟨.effectiveFromInPast hread ht, rfl⟩
    · rw [hj] at h
      cases h
      obtain ⟨⟨v, hv, hin, rfl⟩, htop⟩ := History.latestStart?_eq_some_iff.1 hl
      exact ⟨.effectiveFromOverlaps hread ht (Currency.resolve?_eq_some_iff.1 hc) hv hin htop hle, rfl⟩
    · rw [hj] at h
      cases h
  · intro hx
    obtain ⟨hr, hf⟩ := hx
    cases hr with
    | effectiveFromRequired hread => simp [judgeStart, hread]
    | effectiveFromInPast hread ht => simp [judgeStart, hread, ht]
    | effectiveFromOverlaps hread ht hc hv hin htop hle =>
      have hl := History.latestStart?_eq_some_iff.2 ⟨⟨_, hv, hin, rfl⟩, htop⟩
      simp [judgeStart, hread, not_lt.2 ht, Currency.resolve?_eq_some_iff.2 hc, hl, hle]
    | _ => cases hf

/-! ## The proposal -/

theorem mem_reason {α : Type} {x : Except Rejection α} {r : Rejection} : r ∈ reason x ↔ x = .error r := by
  cases x <;> simp [reason, eq_comm]

/-- A field gives at most one reason. -/
theorem reason_fields {α : Type} {x : Except Rejection α} {f : ProposalField}
    (h : ∀ r, x = .error r → r.field = f) : ((reason x).map (·.field)).Sublist [f] := by
  cases x with
  | ok a => exact List.nil_sublist _
  | error r => simp [reason, h r rfl]

/-- What the gate does, with the currency as it is looked up. -/
theorem validate_cases (p : Proposal) (currencies : List Currency) (history : History) (now : Instant) :
    (∃ c amount start, judgeCurrency currencies p.currency = .ok c ∧
      judgeAmount (Currency.resolve? currencies p.currency) p.amount = .ok amount ∧
      judgeStart (Currency.resolve? currencies p.currency) history now p.effectiveFrom = .ok start ∧
      p.validate currencies history now = .ok (acceptanceOf c amount start now)) ∨
      (p.validate currencies history now = .error (reason (judgeCurrency currencies p.currency) ++
          reason (judgeAmount (Currency.resolve? currencies p.currency) p.amount) ++
          reason (judgeStart (Currency.resolve? currencies p.currency) history now p.effectiveFrom)) ∧
        ∃ r, judgeCurrency currencies p.currency = .error r ∨
          judgeAmount (Currency.resolve? currencies p.currency) p.amount = .error r ∨
          judgeStart (Currency.resolve? currencies p.currency) history now p.effectiveFrom = .error r) := by
  rw [validate, judgeCurrency_toOption]
  cases judgeCurrency currencies p.currency with
  | error r => exact Or.inr ⟨rfl, r, Or.inl rfl⟩
  | ok c =>
    cases judgeAmount (Currency.resolve? currencies p.currency) p.amount with
    | error r => exact Or.inr ⟨rfl, r, Or.inr (Or.inl rfl)⟩
    | ok amount =>
      cases judgeStart (Currency.resolve? currencies p.currency) history now p.effectiveFrom with
      | error r => exact Or.inr ⟨rfl, r, Or.inr (Or.inr rfl)⟩
      | ok start => exact Or.inl ⟨c, amount, start, rfl, rfl, rfl, rfl⟩

theorem keeps_iff {c : Currency} {amount : Decimal} {start : Instant} :
    p.Keeps currencies history now c amount start ↔ judgeCurrency currencies p.currency = .ok c ∧
      judgeAmount (Currency.resolve? currencies p.currency) p.amount = .ok amount ∧
      judgeStart (Currency.resolve? currencies p.currency) history now p.effectiveFrom = .ok start := by
  rw [judgeCurrency_eq_ok_iff, judgeAmount_eq_ok_iff, judgeStart_eq_ok_iff]
  constructor
  · intro h
    have hres := Currency.resolve?_eq_some_iff.2 h.named
    rw [hres]
    refine ⟨h.named, ⟨h.amount_typed, h.positive, ?_⟩, h.start_typed, h.not_past, ?_⟩
    · intro _ hx
      cases hx
      exact h.precise
    · intro _ hx
      cases hx
      exact h.after_all
  · intro hx
    obtain ⟨hc, ⟨hread, hpos, hfits⟩, htyped, hnow, hafter⟩ := hx
    have hres := Currency.resolve?_eq_some_iff.2 hc
    exact ⟨hc, hread, hpos, hfits c hres, htyped, hnow, hafter c hres⟩

theorem validate_eq_ok_iff {a : Acceptance} : p.validate currencies history now = .ok a ↔
    ∃ c amount start, p.Keeps currencies history now c amount start ∧ a = acceptanceOf c amount start now := by
  rcases validate_cases p currencies history now with ⟨c, amount, start, hc, ha, hs, hv⟩ | ⟨hv, r, hr⟩
  · rw [hv, Except.ok.injEq]
    constructor
    · intro hx
      obtain rfl := hx
      exact ⟨c, amount, start, keeps_iff.2 ⟨hc, ha, hs⟩, rfl⟩
    · intro hx
      obtain ⟨c', amount', start', hk, rfl⟩ := hx
      obtain ⟨hc', ha', hs'⟩ := keeps_iff.1 hk
      rw [hc] at hc'
      rw [ha] at ha'
      rw [hs] at hs'
      cases hc'
      cases ha'
      cases hs'
      rfl
  · simp only [hv, reduceCtorEq, false_iff]
    intro hx
    obtain ⟨c, amount, start, hk, -⟩ := hx
    obtain ⟨hc, ha, hs⟩ := keeps_iff.1 hk
    simp [hc, ha, hs] at hr

/-- The reasons against a proposal are the rules that it breaks. -/
theorem mem_of_validate_eq_error {rs : List Rejection} (h : p.validate currencies history now = .error rs)
    (r : Rejection) : r ∈ rs ↔ p.Breaks currencies history now r := by
  rcases validate_cases p currencies history now with ⟨c, amount, start, -, -, -, hv⟩ | ⟨hv, -⟩
  · rw [hv] at h
    cases h
  · rw [hv] at h
    cases h
    simp only [List.mem_append, mem_reason, judgeCurrency_eq_error_iff history now,
      judgeAmount_eq_error_iff history now, judgeStart_eq_error_iff]
    cases hf : r.field <;> simp

/-- A proposal is accepted iff it keeps the rules, as the version that it names. Any other is
refused, with at least one reason and all that there are, at most one per field and in the order
of the fields. -/
theorem validate_decides (p : Proposal) (currencies : List Currency) (history : History) (now : Instant) :
    (∀ a, p.validate currencies history now = .ok a ↔ ∃ c amount start,
        p.Keeps currencies history now c amount start ∧ a = acceptanceOf c amount start now) ∧
      ((¬ ∃ c amount start, p.Keeps currencies history now c amount start) →
        ∃ rs, p.validate currencies history now = .error rs ∧ rs ≠ [] ∧
          (rs.map (·.field)).Sublist [.currency, .amount, .effectiveFrom] ∧
          ∀ r, r ∈ rs ↔ p.Breaks currencies history now r) := by
  refine ⟨fun a => validate_eq_ok_iff, fun hnone => ?_⟩
  rcases validate_cases p currencies history now with ⟨c, amount, start, hc, ha, hs, -⟩ | ⟨hv, r, hr⟩
  · exact absurd ⟨c, amount, start, keeps_iff.2 ⟨hc, ha, hs⟩⟩ hnone
  · refine ⟨_, hv, ?_, ?_, mem_of_validate_eq_error hv⟩
    · apply List.ne_nil_of_mem (a := r)
      simpa only [List.mem_append, mem_reason, or_assoc] using hr
    · rw [List.map_append, List.map_append]
      refine ((reason_fields fun r hr => ?_).append (reason_fields fun r hr => ?_)).append
        (reason_fields fun r hr => ?_)
      · exact ((judgeCurrency_eq_error_iff history now).1 hr).2
      · exact ((judgeAmount_eq_error_iff history now).1 hr).2
      · exact (judgeStart_eq_error_iff.1 hr).2

end Proposal

end Tariff
