import Mathlib
import Tariff.Proofs.Proposal.Rules
import Tariff.Proofs.Text.Spelling
/-
  Tariff.Proofs.Proposal.Sight — what the gate sees.

  Of a history the gate sees when the versions in the currency of the proposal start, and nothing
  else: not their order, not the versions in other currencies, and neither the name, the price, the
  amount nor the end of a version. A history that differs in these only is retold (`Retold`), and the
  latest start of the currency is the same (`Retold.latestStart?_eq`). Of the texts in the proposal it
  sees no blanks at the ends, and of a code, in the proposal or in a version, not the case of ASCII
  letters either. Such changes, all at once, leave the decision as it is, with every reason and what
  the reason says (`validate_sees_starts_only`).
-/

namespace Tariff

namespace History

/-! ## Histories that say the same of a currency -/

/-- The versions are alike but for what the gate does not see: they start at the same instant, and
their codes are spellings of one code. -/
structure SameStart (v w : Version) : Prop where
  currency : Text.Respelled v.currency w.currency
  start : v.effectiveFrom = w.effectiveFrom

/-- The second history says of the currency with this code what the first says, in other words. -/
inductive Retold (code : String) : History → History → Prop
  | permuted {h h' : History} : h.Perm h' → Retold code h h'
  /-- Any versions are written anew. -/
  | rewritten {h h' : History} : List.Forall₂ SameStart h h' → Retold code h h'
  /-- There is a version more in another currency. -/
  | other {h : History} {v : Version} : v.isIn code = false → Retold code h (v :: h)
  | symm {h h' : History} : Retold code h h' → Retold code h' h
  | trans {h h' h'' : History} : Retold code h h' → Retold code h' h'' → Retold code h h''

/-- When the versions in a currency start. -/
def startsIn (h : History) (code : String) : List Instant := (h.filter (·.isIn code)).map (·.effectiveFrom)

theorem startsIn_rewritten {h h' : History} (code : String) (hall : List.Forall₂ SameStart h h') :
    h.startsIn code = h'.startsIn code := by
  induction hall with
  | nil => rfl
  | @cons v w h h' hvw hall ih =>
    have hin : v.isIn code = w.isIn code := Version.isIn_congr hvw.currency.codeKey_eq rfl
    cases hw : w.isIn code <;> simp_all [startsIn, hvw.start]

theorem Retold.startsIn_perm {code : String} {h h' : History} (hretold : Retold code h h') :
    (h.startsIn code).Perm (h'.startsIn code) := by
  induction hretold with
  | permuted hperm => exact (hperm.filter _).map _
  | rewritten hall => rw [startsIn_rewritten code hall]
  | other hother => simp [startsIn, hother]
  | symm _ ih => exact ih.symm
  | trans _ _ ih ih' => exact ih.trans ih'

theorem Retold.latestStart?_eq {code : String} {h h' : History} (hretold : Retold code h h') :
    h.latestStart? code = h'.latestStart? code := Instant.latest?_perm hretold.startsIn_perm

end History

namespace Proposal

variable {currencies : List Currency} {history history' : History} {now : Instant} {typed typed' : String}

/-! ## The fields -/

theorem judgeCurrency_congr (h : Text.codeKey typed = Text.codeKey typed') :
    judgeCurrency currencies typed = judgeCurrency currencies typed' := by
  have hempty : (Text.trim typed).isEmpty = (Text.trim typed').isEmpty := by
    rw [Bool.eq_iff_iff, String.isEmpty_iff, String.isEmpty_iff, ← Text.codeKey_eq_nil, ← Text.codeKey_eq_nil, h]
  simp only [judgeCurrency, hempty, Currency.resolve?_trim, Currency.resolve?_congr currencies h,
    Text.upper_trim_congr h]

theorem judgeAmount_padded (currency : Option Currency) (h : Text.Padded typed typed') :
    judgeAmount currency typed = judgeAmount currency typed' := by
  have hread : readAmount? typed = readAmount? typed' := by rw [readAmount?, readAmount?, h.trimChars_eq]
  rw [judgeAmount, judgeAmount, hread]

theorem judgeStart_padded (currency : Option Currency) (history : History) (now : Instant)
    (h : Text.Padded typed typed') :
    judgeStart currency history now typed = judgeStart currency history now typed' := by
  have hread : Instant.readTyped? typed = Instant.readTyped? typed' := by
    rw [Instant.readTyped?, Instant.readTyped?, h.trimChars_eq]
  rw [judgeStart, judgeStart, hread]

/-- Only the latest start of the currency of a code counts. -/
theorem judgeStart_retold {code : String} (hretold : History.Retold code history history') :
    judgeStart (Currency.resolve? currencies code) history now typed =
      judgeStart (Currency.resolve? currencies code) history' now typed := by
  have hlatest : ((Currency.resolve? currencies code).bind fun c => history.latestStart? c.code) =
      (Currency.resolve? currencies code).bind fun c => history'.latestStart? c.code := by
    cases hc : Currency.resolve? currencies code with
    | none => rfl
    | some c =>
      have hkey := (Currency.resolve?_eq_some_iff.1 hc).codeKey_eq
      rw [Option.bind_some, Option.bind_some, History.latestStart?_congr history hkey,
        History.latestStart?_congr history' hkey, hretold.latestStart?_eq]
  rw [judgeStart, judgeStart, hlatest]

/-! ## The proposal -/

/-- The decision on a proposal, accepted or with its reasons, is the same when the history is told in
another order, its versions are written anew with the same starts, versions in other currencies are
there or not, codes are spelled in another way, and blanks stand around the amount and the start. -/
theorem validate_sees_starts_only (p p' : Proposal) (currencies : List Currency) (history history' : History)
    (now : Instant) (hcurrency : Text.Respelled p.currency p'.currency) (hamount : Text.Padded p.amount p'.amount)
    (hstart : Text.Padded p.effectiveFrom p'.effectiveFrom)
    (hhistory : History.Retold p.currency history history') :
    p.validate currencies history now = p'.validate currencies history' now := by
  have hcode := hcurrency.codeKey_eq
  have hamounts := judgeAmount_padded (Currency.resolve? currencies p.currency) hamount
  have hstarts : judgeStart (Currency.resolve? currencies p.currency) history now p.effectiveFrom =
      judgeStart (Currency.resolve? currencies p.currency) history' now p'.effectiveFrom :=
    (judgeStart_retold hhistory).trans (judgeStart_padded _ _ _ hstart)
  rw [validate, validate, judgeCurrency_toOption, judgeCurrency_toOption, judgeCurrency_congr hcode,
    ← Currency.resolve?_congr currencies hcode, hamounts, hstarts]

/-- A dollar price is refused for a version in dollars, whatever is told beside it and however the
code is spelled. -/
theorem validate_sees_starts_only_in_dollars :
    let p : Proposal := ⟨"usd", "10.50", "1970-01-01"⟩
    let p' : Proposal := ⟨" USD", "10.50 ", "\t1970-01-01"⟩
    let first : Version := ⟨"amount_1", none, "USD", Decimal.unit 0, Instant.epoch, none⟩
    let again : Version := ⟨"", some "price_1", "Usd ", Decimal.unit 2, Instant.epoch, some Instant.epoch⟩
    let yen : Version := ⟨"amount_2", none, "JPY", Decimal.unit 0, Instant.epoch, none⟩
    let dollars : List Currency := [⟨"USD", "US Dollar", some "$", some 2⟩]
    Text.Respelled p.currency p'.currency ∧ Text.Padded p.amount p'.amount ∧
      Text.Padded p.effectiveFrom p'.effectiveFrom ∧ History.Retold p.currency [first, yen] [again] ∧
      p.validate dollars [first, yen] Instant.epoch = p'.validate dollars [again] Instant.epoch ∧
      (p.validate dollars [first, yen] Instant.epoch).toOption = none := by
  intro p p' first again yen dollars
  have hcurrency : Text.Respelled p.currency p'.currency :=
    (Text.Respelled.recased (t := "USD") (by decide +kernel)).trans
      (.padded ⟨[' '], [], by decide +kernel, by decide +kernel, by decide +kernel⟩)
  have hamount : Text.Padded p.amount p'.amount :=
    ⟨[], [' '], by decide +kernel, by decide +kernel, by decide +kernel⟩
  have hstart : Text.Padded p.effectiveFrom p'.effectiveFrom :=
    ⟨['\t'], [], by decide +kernel, by decide +kernel, by decide +kernel⟩
  have hspelled : Text.Respelled first.currency again.currency :=
    (Text.Respelled.recased (t := "Usd") (by decide +kernel)).trans
      (.padded ⟨[], [' '], by decide +kernel, by decide +kernel, by decide +kernel⟩)
  have hyen : History.Retold p.currency [first] [yen, first] := .other (by decide +kernel)
  have hhistory : History.Retold p.currency [first, yen] [again] :=
    ((History.Retold.permuted (List.Perm.swap yen first [])).trans hyen.symm).trans
      (.rewritten (.cons ⟨hspelled, rfl⟩ .nil))
  exact ⟨hcurrency, hamount, hstart, hhistory,
    validate_sees_starts_only p p' dollars _ _ Instant.epoch hcurrency hamount hstart hhistory,
    by decide +kernel⟩

end Proposal

end Tariff
