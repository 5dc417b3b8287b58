import Mathlib
import Tariff.Proofs.Backend.Books
import Tariff.Proofs.Proposal.Rules
/-
  Tariff.Proofs.Proposal.Resubmission — the code that is submitted, and proposing the same again.

  An accepted proposal is submitted under the trimmed upper case of its currency's code. Codes match
  up to blanks and the case of ASCII letters, and upper-casing goes further: "ß" becomes "SS". A
  currency keeps its code if the code that is submitted still matches it (`KeepsCode`), as ASCII
  codes do.

  Three things hang on that, and on nothing else (`submitted_code_settles`): the submitted code leads
  to the entry that the proposal named, the version that was appended is the latest one of the
  proposal's currency, and the proposal is refused from then on. Of a currency that does not keep its
  code the same proposal is accepted again and again (`sharp_s_is_accepted_again`).
-/

namespace Tariff

namespace Currency

/-- The code under which an amount of the currency is submitted matches the currency's code. -/
def KeepsCode (c : Currency) : Prop := Text.sameCode (Text.upper (Text.trim c.code)) c.code = true

theorem keepsCode_iff {c : Currency} :
    c.KeepsCode ↔ Text.codeKey (Text.upper (Text.trim c.code)) = Text.codeKey c.code := Text.sameCode_iff

theorem keepsCode_of_ascii {c : Currency} (h : Text.IsAscii c.code) : c.KeepsCode :=
  keepsCode_iff.2 (Text.codeKey_upper_trim h)

variable {currencies : List Currency} {typed : String} {c : Currency}

/-- The submitted code leads back to the entry exactly where the entry keeps its code. -/
theorem Named.resolve?_submitted_iff (h : Named currencies typed c) :
    resolve? currencies (Text.upper (Text.trim c.code)) = some c ↔ c.KeepsCode := by
  rw [resolve?_eq_some_iff, keepsCode_iff]
  constructor
  · exact fun hsubmitted => hsubmitted.codeKey_eq.symm
  · exact fun hkeeps => h.congr (h.codeKey_eq.symm.trans hkeeps.symm)

theorem hasCode_iff {d : Currency} {code : String} :
    d.hasCode code = true ↔ Text.codeKey d.code = Text.codeKey code := Text.sameCode_iff

/-- Codes with one key lead to one place in the list. -/
theorem indexOf?_congr {a b : String} (h : Text.codeKey a = Text.codeKey b) :
    indexOf? currencies a = indexOf? currencies b := by
  have hblank : Text.isBlankText a = Text.isBlankText b := by
    rw [Bool.eq_iff_iff, Text.isBlankText_iff, Text.isBlankText_iff, ← Text.codeKey_eq_nil, h,
      Text.codeKey_eq_nil]
  have hmatch : ∀ d : Currency, d.hasCode a = d.hasCode b := fun d => by
    rw [Bool.eq_iff_iff, hasCode_iff, hasCode_iff, h]
  simp only [indexOf?, hblank, hmatch]

/-- A place to which a code leads holds an entry with the key of the code. -/
theorem codeKey_of_indexOf? {i : Nat} (h : indexOf? currencies typed = some i) :
    ∃ d, currencies[i]? = some d ∧ Text.codeKey d.code = Text.codeKey typed := by
  unfold indexOf? at h
  split at h
  · cases h
  · obtain ⟨hi, hd, -⟩ := List.findIdx?_eq_some_iff_getElem.1 h
    exact ⟨currencies[i], List.getElem?_eq_getElem hi, hasCode_iff.1 hd⟩

/-- The submitted code leads to the place of the typed code exactly where the entry keeps its code. -/
theorem Named.indexOf?_submitted_iff (h : Named currencies typed c) :
    indexOf? currencies (Text.upper (Text.trim c.code)) = indexOf? currencies typed ↔ c.KeepsCode := by
  rw [keepsCode_iff, h.codeKey_eq]
  refine ⟨fun heq => ?_, indexOf?_congr⟩
  cases hi : indexOf? currencies typed with
  | none =>
    -- the entry that the typed code names has a place
    obtain ⟨hne, before, after, rfl, hc, -⟩ := h
    have hb : ¬ Text.isBlankText typed = true := fun hb => hne ((Text.isBlankText_iff typed).1 hb)
    rw [indexOf?, if_neg hb, List.findIdx?_eq_none_iff] at hi
    have := hi c (by simp)
    rw [hasCode, hc] at this
    cases this
  | some i =>
    obtain ⟨d, hd, hdkey⟩ := codeKey_of_indexOf? hi
    obtain ⟨e, he, hekey⟩ := codeKey_of_indexOf? (heq.trans hi)
    rw [hd] at he
    cases he
    exact hekey.symm.trans hdkey

end Currency

/-! ## One version more -/

namespace History

variable {h : History} {code : String} {v : Version}

/-- A version that starts after all others of a currency is the latest exactly if it is in it. -/
theorem latestStart?_concat_iff (hafter : ∀ w ∈ h, w.isIn code = true → w.effectiveFrom < v.effectiveFrom) :
    latestStart? (h ++ [v]) code = some v.effectiveFrom ↔ v.isIn code = true := by
  rw [latestStart?_eq_some_iff]
  constructor
  · intro hx
    obtain ⟨⟨w, hw, hin, heq⟩, -⟩ := hx
    rcases List.mem_append.1 hw with hw | hw
    · exact absurd heq (hafter w hw hin).ne
    · cases List.mem_singleton.1 hw
      exact hin
  · intro hin
    refine ⟨⟨v, by simp, hin, rfl⟩, fun w hw hwin => ?_⟩
    rcases List.mem_append.1 hw with hw | hw
    · exact (hafter w hw hwin).le
    · cases List.mem_singleton.1 hw
      exact le_rfl

end History

namespace Proposal

variable {p : Proposal} {currencies : List Currency} {history : History} {now later : Instant}
  {c d : Currency} {amount amount' : Decimal} {start start' : Instant} {v : Version}

theorem Keeps.isIn_congr (hk : p.Keeps currencies history now c amount start) (w : Version) :
    w.isIn p.currency = w.isIn c.code :=
  Version.isIn_congr rfl hk.named.codeKey_eq.symm

/-- Of an appended version with the start of the proposal the rules say: it is not in the currency. -/
theorem Keeps.not_isIn (hk : p.Keeps currencies history now c amount start)
    (hnew : p.Keeps currencies (history ++ [v]) later d amount' start') (hstart : v.effectiveFrom = start) :
    v.isIn c.code = false := by
  obtain rfl := hk.named.unique hnew.named
  have hsame : start = start' := Option.some.inj (hk.start_typed.symm.trans hnew.start_typed)
  rw [Bool.eq_false_iff]
  intro hin
  have hlt := hnew.after_all v (by simp) hin
  rw [hstart, hsame] at hlt
  exact lt_irrefl _ hlt

/-- A version of another currency changes nothing. -/
theorem Keeps.concat (hk : p.Keeps currencies history now c amount start) (hother : v.isIn c.code = false) :
    p.Keeps currencies (history ++ [v]) now c amount start where
  named := hk.named
  amount_typed := hk.amount_typed
  positive := hk.positive
  precise := hk.precise
  start_typed := hk.start_typed
  not_past := hk.not_past
  after_all w hw hin := by
    rcases List.mem_append.1 hw with hw | hw
    · exact hk.after_all w hw hin
    · cases List.mem_singleton.1 hw
      rw [hother] at hin
      cases hin

/-- A proposal that has been appended is refused from then on exactly if the version is in its
currency; otherwise it is accepted once more. -/
theorem Keeps.refused_iff (hk : p.Keeps currencies history now c amount start) (hstart : v.effectiveFrom = start) :
    (∀ later, ∃ rs, p.validate currencies (history ++ [v]) later = .error rs) ↔ v.isIn c.code = true := by
  constructor
  · intro hrefused
    by_contra hother
    obtain ⟨rs, hrs⟩ := hrefused now
    have hagain := validate_eq_ok_iff.2 ⟨c, amount, start, hk.concat (by simpa using hother), rfl⟩
    rw [hrs] at hagain
    cases hagain
  · intro hin later
    cases hv : p.validate currencies (history ++ [v]) later with
    | error rs => exact ⟨rs, rfl⟩
    | ok a =>
      obtain ⟨d, amount', start', hnew, -⟩ := validate_eq_ok_iff.1 hv
      rw [hk.not_isIn hnew hstart] at hin
      cases hin

/-- The code of an accepted proposal leads to the entry that the proposal named, the version that is
appended for it is the latest of the proposal's currency, and the proposal is refused from then on:
each of these holds exactly where the entry keeps its code, which it does if the code is ASCII. -/
theorem submitted_code_settles (p : Proposal) (currencies : List Currency) (history : History) (now : Instant)
    (a : Acceptance) (h : p.validate currencies history now = .ok a) :
    ∃ c, Currency.Named currencies p.currency c ∧ (Text.IsAscii c.code → c.KeepsCode) ∧
      (Currency.resolve? currencies a.currency = some c ↔ c.KeepsCode) ∧
      (Currency.indexOf? currencies a.currency = Currency.indexOf? currencies p.currency ↔ c.KeepsCode) ∧
      ∀ v : Version, v.Fulfils a.request →
        (History.latestStart? (history ++ [v]) p.currency = some a.effectiveFrom ↔ c.KeepsCode) ∧
        ((∀ later, ∃ rs, p.validate currencies (history ++ [v]) later = .error rs) ↔ c.KeepsCode) := by
  obtain ⟨c, amount, start, hk, rfl⟩ := validate_eq_ok_iff.1 h
  refine ⟨c, hk.named, Currency.keepsCode_of_ascii, hk.named.resolve?_submitted_iff,
    hk.named.indexOf?_submitted_iff, fun v hv => ?_⟩
  have hcode : v.currency = Text.upper (Text.trim c.code) := hv.currency
  have hstart : v.effectiveFrom = start := hv.start
  have hin : v.isIn c.code = true ↔ c.KeepsCode := by rw [Version.isIn, hcode, Currency.KeepsCode]
  have hafter : ∀ w ∈ history, w.isIn p.currency = true → w.effectiveFrom < v.effectiveFrom := by
    intro w hw hwin
    rw [hk.isIn_congr] at hwin
    exact hstart ▸ hk.after_all w hw hwin
  constructor
  · have hlatest := History.latestStart?_concat_iff hafter
    rw [hk.isIn_congr, hin, hstart] at hlatest
    exact hlatest
  · rw [hk.refused_iff hstart, hin]

/-- So it is with dollars: once appended, the proposal is refused. -/
theorem submitted_code_settles_in_dollars :
    let p : Proposal := ⟨" usd", "10.50", "2024-06-01"⟩
    let dollars : List Currency := [⟨"USD", "US Dollar", some "$", some 2⟩]
    ∃ a, p.validate dollars [] Instant.epoch = .ok a ∧ ∃ c ∈ dollars, c.KeepsCode ∧
      Currency.resolve? dollars a.currency = some c ∧ ∀ v : Version, v.Fulfils a.request →
        ∀ later, ∃ rs, p.validate dollars [v] later = .error rs := by
  intro p dollars
  have haccepted : (p.validate dollars [] Instant.epoch).toOption.isSome = true := by decide +kernel
  cases hv : p.validate dollars [] Instant.epoch with
  | error rs => simp [hv, Except.toOption] at haccepted
  | ok a =>
    obtain ⟨c, hc, hascii, hresolve, -, hversion⟩ := submitted_code_settles p dollars [] Instant.epoch a hv
    have hkeeps : c.KeepsCode := by
      apply hascii
      have hmem := hc.mem
      obtain rfl : c = ⟨"USD", "US Dollar", some "$", some 2⟩ := by simpa [dollars] using hmem
      simp [Text.IsAscii]
    exact ⟨a, rfl, c, hc.mem, hkeeps, hresolve.2 hkeeps, fun v hv => (hversion v hv).2.2 hkeeps⟩

/-- The upper case of "ß" matches no entry, and a proposal in it is accepted again after it has been
appended. -/
theorem sharp_s_is_accepted_again :
    let p : Proposal := ⟨"ß", "10", "2024-06-01"⟩
    let currencies : List Currency := [⟨"ß", "", none, none⟩]
    ∃ (a : Acceptance) (v : Version), p.validate currencies [] Instant.epoch = .ok a ∧ v.Fulfils a.request ∧
      Currency.resolve? currencies a.currency = none ∧ History.latestStart? [v] p.currency = none ∧
      p.validate currencies [v] Instant.epoch = .ok a := by
  intro p currencies
  let appended (a : Acceptance) : Version := ⟨"", none, a.currency, a.amount, a.effectiveFrom, none⟩
  have hall : ∀ a ∈ (p.validate currencies [] Instant.epoch).toOption,
      Currency.resolve? currencies a.currency = none ∧ History.latestStart? [appended a] p.currency = none ∧
        (p.validate currencies [appended a] Instant.epoch).toOption = some a := by decide +kernel
  have haccepted : (p.validate currencies [] Instant.epoch).toOption.isSome = true := by decide +kernel
  cases hv : p.validate currencies [] Instant.epoch with
  | error rs => simp [hv, Except.toOption] at haccepted
  | ok a =>
    obtain ⟨hresolve, hlatest, hagain⟩ := hall a (by simp [hv, Except.toOption])
    refine ⟨a, appended a, rfl, ⟨rfl, rfl, rfl, rfl⟩, hresolve, hlatest, ?_⟩
    cases hw : p.validate currencies [appended a] Instant.epoch with
    | error rs => simp [hw, Except.toOption] at hagain
    | ok b => simpa [hw, Except.toOption] using hagain

end Proposal

end Tariff
