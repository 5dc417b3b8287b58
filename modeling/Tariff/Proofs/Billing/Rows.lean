import Mathlib
import Tariff.Proofs.Billing.Answers
import Tariff.Proofs.Version.Codec
/-
  Tariff.Proofs.Billing.Rows — the versions in an answer.

  A payload holds a list of versions in one of three places, of which the first that has a list counts
  (`Holds`). A history is read if every row of the list is a version, and then has one version for each
  row, in their order; a payload that holds no list has no versions (`history_is_read_row_by_row`).
-/

namespace Tariff

variable {m : Type → Type} [Monad m] {σ : Type} [Stateful m σ]

namespace Billing

/-- The payload holds this list of versions: it is the list, or has it as `amounts`, or has it as
`price_amounts` while `amounts` is no list. -/
inductive Holds : Json → List Json → Prop
  | bare (rows : List Json) : Holds (.array rows) rows
  | amounts {data : Json} {rows : List Json} (member : data.member? "amounts" = some (.array rows)) :
      Holds data rows
  | priceAmounts {data : Json} {rows : List Json}
      (noAmounts : ∀ others, data.member? "amounts" ≠ some (.array others))
      (member : data.member? "price_amounts" = some (.array rows)) : Holds data rows

theorem filter_isArray_eq_some_iff {found : Option Json} {v : Json} :
    found.filter Json.isArray = some v ↔ ∃ rows, v = .array rows ∧ found = some (.array rows) := by
  rw [Option.filter_eq_some_iff]
  constructor
  · intro hx
    obtain ⟨hfound, harray⟩ := hx
    cases v with
    | array rows => exact ⟨rows, rfl, hfound⟩
    | _ => cases harray
  · intro hx
    obtain ⟨rows, rfl, hfound⟩ := hx
    exact ⟨hfound, rfl⟩

theorem versionRows?_eq_some_iff {data v : Json} :
    versionRows? data = some v ↔ ∃ rows, v = .array rows ∧ Holds data rows := by
  by_cases harray : data.isArray = true
  · cases data with
    | array rows =>
      constructor
      · intro hx
        cases hx
        exact ⟨rows, rfl, .bare rows⟩
      · intro hx
        obtain ⟨rows', rfl, hholds⟩ := hx
        cases hholds with
        | bare => rfl
        | amounts member => cases member
        | priceAmounts _ member => cases member
    | _ => cases harray
  · rw [versionRows?, if_neg harray, Option.or_eq_some_iff, filter_isArray_eq_some_iff, filter_isArray_eq_some_iff]
    constructor
    · intro hx
      rcases hx with ⟨rows, rfl, member⟩ | ⟨hnone, rows, rfl, member⟩
      · exact ⟨rows, rfl, .amounts member⟩
      · refine ⟨rows, rfl, .priceAmounts (fun others hothers => ?_) member⟩
        rw [hothers] at hnone
        cases hnone
    · intro hx
      obtain ⟨rows, rfl, hholds⟩ := hx
      cases hholds with
      | bare => exact absurd rfl harray
      | amounts member => exact .inl ⟨rows, rfl, member⟩
      | priceAmounts noAmounts member =>
        refine .inr ⟨?_, rows, rfl, member⟩
        rw [Option.eq_none_iff_forall_ne_some]
        intro w hw
        obtain ⟨others, -, hothers⟩ := filter_isArray_eq_some_iff.1 hw
        exact noAmounts others hothers

/-- A payload holds one list at most. -/
theorem Holds.unique {data : Json} {rows rows' : List Json} (h : Holds data rows) (h' : Holds data rows') :
    rows = rows' := by
  have hrows := versionRows?_eq_some_iff.2 ⟨rows, rfl, h⟩
  have hrows' := versionRows?_eq_some_iff.2 ⟨rows', rfl, h'⟩
  cases hrows.symm.trans hrows'
  rfl

/-- Each version is what its row says, and no row is left out. -/
def ReadRowByRow (rows : List Json) (history : History) : Prop :=
  List.Forall₂ (fun row v => Json.decodeValue Version.decode row = .ok v) rows history

theorem ReadRowByRow.exists_version {rows : List Json} {history : History} (h : ReadRowByRow rows history)
    {row : Json} (hrow : row ∈ rows) : ∃ v ∈ history, Json.decodeValue Version.decode row = .ok v := by
  induction h with
  | nil => cases hrow
  | cons hv _ ih =>
    rcases List.mem_cons.1 hrow with rfl | hrow
    · exact ⟨_, List.mem_cons_self, hv⟩
    · obtain ⟨w, hw, hdecode⟩ := ih hrow
      exact ⟨w, List.mem_cons_of_mem _ hw, hdecode⟩

theorem historyOf_eq_ok_iff {data : Json} {rows : List Json} (h : Holds data rows) {history : History} :
    historyOf data = .ok history ↔ ReadRowByRow rows history := by
  rw [historyOf, versionRows?_eq_some_iff.2 ⟨rows, rfl, h⟩]
  exact Json.decodeValue_list_eq_ok_iff Version.levelFree_decode

theorem historyOf_eq_nil {data : Json} (h : ∀ rows, ¬ Holds data rows) : historyOf data = .ok [] := by
  have hnone : versionRows? data = none := Option.eq_none_iff_forall_ne_some.2 fun v hv => by
    obtain ⟨rows, -, hholds⟩ := versionRows?_eq_some_iff.1 hv
    exact h rows hholds
  rw [historyOf, hnone]

/-- Versions that were written are read. -/
theorem readRowByRow_toJson (vs : List Version) :
    ReadRowByRow (vs.map Version.toJson) (vs.map Version.unsignedZero) := by
  rw [ReadRowByRow, List.forall₂_map_left_iff, List.forall₂_map_right_iff]
  exact List.forall₂_same.2 fun v _ => v.decodeValue_toJson

/-- A reading of a history whose request is answered with success, perhaps after attempts that got no response:
it has one version for each row of the list that the answer holds, in their order, and none where there is no
list. A row that is no version makes it fail. Versions that were written as rows come back; only a zero has no
sign any more. -/
theorem history_is_read_row_by_row (c : Client m) (priceId : String) {request : Request} {response : Response}
    {text : String} {data : Json} {s t : σ}
    (hrequest : c.service.request .get (c.service.historyAddress priceId) none = .ok request)
    (hanswer : c.Answers request response retries s t) (htext : response.Brings text) (hdata : Wraps text data) :
    let result := ((c.backend.history priceId).exec s).1
    (∀ rows, Holds data rows →
      (∀ history, result = .ok history ↔ ReadRowByRow rows history) ∧
      ∀ row ∈ rows, (∀ v, Json.decodeValue Version.decode row ≠ .ok v) →
        ∃ why, result = .error (.fault (.badVersions priceId why))) ∧
    ((∀ rows, ¬ Holds data rows) → result = .ok []) ∧
    ∀ vs : List Version, Holds data (vs.map Version.toJson) → result = .ok (vs.map Version.unsignedZero) ∧
      ((∀ v ∈ vs, v.amount.negative = true → v.amount.mantissa ≠ 0) → result = .ok vs) := by
  intro result
  have hread : result = (historyOf data).mapError (.fault ∘ .badVersions priceId) := by
    show ((c.backend.history priceId).exec s).1 = _
    rw [hanswer.exec_history hrequest htext, Client.payloadFrom, readPayload_eq_ok_iff.2 (.inl hdata)]
    rfl
  have hok : ∀ history, result = .ok history ↔ historyOf data = .ok history := by
    intro history
    rw [hread]
    cases historyOf data <;> simp [Except.mapError]
  refine ⟨fun rows hholds => ⟨fun history => (hok history).trans (historyOf_eq_ok_iff hholds), ?_⟩, ?_, ?_⟩
  · intro row hrow hbad
    cases hhistory : historyOf data with
    | error why => exact ⟨why, by rw [hread, hhistory]; rfl⟩
    | ok history =>
      obtain ⟨v, -, hv⟩ := ((historyOf_eq_ok_iff hholds).1 hhistory).exists_version hrow
      exact absurd hv (hbad v)
  · exact fun hnone => (hok []).2 (historyOf_eq_nil hnone)
  · intro vs hholds
    have hback := (hok _).2 ((historyOf_eq_ok_iff hholds).2 (readRowByRow_toJson vs))
    refine ⟨hback, fun hzero => ?_⟩
    have hsame : vs.map Version.unsignedZero = vs.map fun v => v :=
      List.map_congr_left fun v hv => Version.unsignedZero_eq_self (hzero v hv)
    rw [hback, hsame, List.map_id']

namespace Bare

def versions : List Version :=
  [⟨"", none, "USD", Decimal.unit 2, .epoch, none⟩, ⟨"", none, "EUR", Decimal.unit 0, .epoch, none⟩]

/-- Two versions below `price_amounts`, and an `amounts` that is no list. -/
def listed : String :=
  "\x7b\"data\":\x7b\"amounts\":1,\"price_amounts\":[" ++
    "\x7b\"currency\":\"USD\",\"amount\":\"0.01\",\"effective_from\":\"1970-01-01T00:00:00Z\"\x7d," ++
    "\x7b\"currency\":\"EUR\",\"amount\":1,\"effective_from\":\"1970-01-01T00:00:00Z\"\x7d]\x7d\x7d"

end Bare

open Bare in
/-- Both come back, in their order, here after three requests that got no response. -/
theorem listed_versions_are_read :
    ∃ rows, rows.length = 2 ∧ ReadRowByRow rows versions ∧
      (((client listed).backend.history "price_1").exec 3).1 = .ok versions := by
  have hshape : (JsonDraft.readValue? listed).any Json.isArray = false := by decide +kernel
  have hvalue : ((readPayload listed).toOption.bind fun data => (historyOf data).toOption) = some versions := by
    decide +kernel
  obtain ⟨request, hrequest⟩ := exists_request
  cases hpayload : readPayload listed with
  | error why => simp [hpayload, Except.toOption] at hvalue
  | ok data =>
    have hread : historyOf data = .ok versions := by
      cases hread : historyOf data <;> simp [hpayload, hread, Except.toOption] at hvalue ⊢
      exact hvalue
    have hwraps : Wraps listed data := by
      rcases readPayload_eq_ok_iff.1 hpayload with hwraps | ⟨hempty, -⟩ | hsingle
      · exact hwraps
      · simp [hempty, Json.isArray] at hshape
      · simp [hsingle, Json.isArray] at hshape
    obtain ⟨rows, hholds⟩ : ∃ rows, Holds data rows := by
      by_contra hnone
      rw [historyOf_eq_nil fun rows hholds => hnone ⟨rows, hholds⟩] at hread
      cases hread
    have hall := (historyOf_eq_ok_iff hholds).1 hread
    obtain ⟨hrows, -, -⟩ := history_is_read_row_by_row (client listed) "price_1" hrequest
      (Link.faltering_answers request (Nat.le_refl retries)) ⟨rfl, rfl⟩ hwraps
    exact ⟨rows, hall.length_eq, hall, ((hrows rows hholds).1 versions).2 hall⟩

end Billing

end Tariff
