import Mathlib
import Tariff.Billing.Answer
import Tariff.Proofs.Decode.Record
import Tariff.Proofs.Json.Complete
/-
  Tariff.Proofs.Billing.Envelope — the payload of an answer.

  The payload stands as `data` in the object that an answer is (`Wraps`). A record may also be read from
  an array of its fields in order, and the envelope is read as a record: an array of one item passes
  for an answer with this payload, and an empty one for an answer without a payload. Nothing else has a
  payload (`readPayload_eq_ok_iff`).
-/

namespace Tariff

namespace Billing

/-! ## Envelopes -/

/-- The text is a JSON object. -/
def IsObject (body : String) : Prop :=
  ∃ members, JsonDraft.ofText body = (.object members true, true) ∧ JsonDraft.allMembersWellFormed members = true

/-- A member of the envelope besides the payload. -/
def Besides (m : Option String × JsonDraft) : Prop :=
  ∃ name, m.1 = some name ∧ name ≠ "data" ∧ m.2.wellFormed = true

/-- The text is an object of which `data` is this value, or null if there is no such member. -/
inductive Wraps (body : String) : Json → Prop
  | data {before after : List (Option String × JsonDraft)} {d : JsonDraft} {data : Json}
      (object : JsonDraft.ofText body = (.object (before ++ (some "data", d) :: after) true, true))
      (besides : ∀ m ∈ before ++ after, Besides m)
      (value : d.valueWithin? (JsonDraft.maxLevels - 1) = some data) : Wraps body data
  | none {members : List (Option String × JsonDraft)}
      (object : JsonDraft.ofText body = (.object members true, true))
      (besides : ∀ m ∈ members, Besides m) : Wraps body .null

theorem Wraps.isObject {body : String} {data : Json} (h : Wraps body data) : IsObject body := by
  have hbesides : ∀ {m : Option String × JsonDraft}, Besides m → m.2.wellFormed = true :=
    fun ⟨_, _, _, hm⟩ => hm
  cases h with
  | data object besides value =>
    refine ⟨_, object, JsonDraft.allMembersWellFormed_iff.2 fun m hm => ?_⟩
    rcases List.mem_append.1 hm with hm | hm
    · exact hbesides (besides m (List.mem_append_left _ hm))
    · rcases List.mem_cons.1 hm with rfl | hm
      · exact JsonDraft.wellFormed_of_valueWithin? value
      · exact hbesides (besides m (List.mem_append_right _ hm))
  | none object besides =>
    exact ⟨_, object, JsonDraft.allMembersWellFormed_iff.2 fun m hm => hbesides (besides m hm)⟩

/-! ## Reading the envelope -/

/-- The field of the payload. -/
def payloadField : Field JsonNode (Option Json) := .defaulted "data" id (fun v _ => some v) JsonNode.value

theorem decodePayload_eq (d : JsonNode) :
    decodePayload d = (Field.fill "LooseEnvelope" [payloadField] none d).map (·.getD .null) := by
  show (Field.fill "LooseEnvelope" [payloadField] none d).bind _ = _
  cases Field.fill "LooseEnvelope" [payloadField] none d <;> rfl

theorem value_inner_eq_ok_iff {d : JsonNode} {draft : JsonDraft} {v : Json} :
    (d.inner draft).value = .ok v ↔ draft.valueWithin? (d.levels - 1) = some v := by
  unfold JsonNode.value JsonNode.inner
  cases draft.valueWithin? (d.levels - 1) <;> simp

theorem readMember_data (d : JsonNode) (s : Option Json) (draft : JsonDraft) :
    Field.readMember [payloadField] s (d.entry (some "data", draft)) =
      if s.isSome then .error (.of (.duplicateField "data")) else (d.inner draft).value.map some := rfl

theorem readMember_besides (d : JsonNode) (s : Option Json) {name : String} (h : name ≠ "data")
    (draft : JsonDraft) :
    Field.readMember [payloadField] s (d.entry (some name, draft)) =
      if draft.wellFormed then .ok s else .error JsonNode.malformed := by
  have hfind : [payloadField].find? (·.name == name) = none := by
    simpa [payloadField, Field.defaulted, Field.required] using Ne.symm h
  have hskip : Source.skip (d.inner draft) = if draft.wellFormed then .ok () else .error JsonNode.malformed := rfl
  show Field.readMember [payloadField] s (.ok name, d.inner draft) = _
  rw [Field.readMember_of_unknown hfind, hskip]
  cases draft.wellFormed <;> rfl

theorem readMember_eq_ok_iff {d : JsonNode} {s r : Option Json} {m : Option String × JsonDraft} :
    Field.readMember [payloadField] s (d.entry m) = .ok r ↔ (Besides m ∧ r = s) ∨
      (m.1 = some "data" ∧ s = none ∧ ∃ v, m.2.valueWithin? (d.levels - 1) = some v ∧ r = some v) := by
  rcases m with ⟨_ | name, draft⟩
  · simp [Field.readMember, JsonNode.entry, Besides, bind, Except.bind]
  · by_cases hname : name = "data"
    · subst hname
      rw [readMember_data]
      cases s with
      | some v => simp [Besides]
      | none =>
        simp only [← value_inner_eq_ok_iff]
        cases (d.inner draft).value with
        | error why => simp [Besides, Except.map]
        | ok v => simpa [Besides, Except.map] using eq_comm
    · rw [readMember_besides d s hname]
      cases hw : draft.wellFormed with
      | false => simp [Besides, hname, hw]
      | true => simpa [Besides, hname, hw] using eq_comm

/-- Members are read one after the other. -/
theorem readMembers_cons_eq_ok_iff {d : JsonNode} {s r : Option Json} {m : Option String × JsonDraft}
    {ms : List (Option String × JsonDraft)} :
    ((m :: ms).map d.entry).foldlM (Field.readMember [payloadField]) s = .ok r ↔
      ∃ u, Field.readMember [payloadField] s (d.entry m) = .ok u ∧
        (ms.map d.entry).foldlM (Field.readMember [payloadField]) u = .ok r := by
  rw [List.map_cons, List.foldlM_cons, bind_eq_ok_iff]

/-- Behind the payload there is none. -/
theorem readMembers_some_eq_ok_iff {d : JsonNode} {v : Json} {r : Option Json}
    {ms : List (Option String × JsonDraft)} :
    (ms.map d.entry).foldlM (Field.readMember [payloadField]) (some v) = .ok r ↔
      (∀ m ∈ ms, Besides m) ∧ r = some v := by
  induction ms with
  | nil => simpa [pure, Except.pure] using eq_comm
  | cons m ms ih =>
    rw [readMembers_cons_eq_ok_iff]
    simp only [readMember_eq_ok_iff, reduceCtorEq, false_and, and_false, or_false, List.forall_mem_cons]
    constructor
    · intro hx
      obtain ⟨u, ⟨hm, rfl⟩, hrest⟩ := hx
      exact ⟨⟨hm, (ih.1 hrest).1⟩, (ih.1 hrest).2⟩
    · intro hx
      exact ⟨some v, ⟨hx.1.1, rfl⟩, ih.2 ⟨hx.1.2, hx.2⟩⟩

/-- Members hold the payload once or not at all. -/
theorem readMembers_none_eq_ok_iff {d : JsonNode} {r : Option Json} {ms : List (Option String × JsonDraft)} :
    (ms.map d.entry).foldlM (Field.readMember [payloadField]) none = .ok r ↔
      ((∀ m ∈ ms, Besides m) ∧ r = none) ∨ ∃ before draft after v, ms = before ++ (some "data", draft) :: after ∧
        (∀ m ∈ before ++ after, Besides m) ∧ draft.valueWithin? (d.levels - 1) = some v ∧ r = some v := by
  induction ms with
  | nil => simpa [pure, Except.pure] using eq_comm
  | cons m ms ih =>
    rw [readMembers_cons_eq_ok_iff]
    simp only [readMember_eq_ok_iff]
    constructor
    · intro hx
      obtain ⟨u, ⟨hm, rfl⟩ | ⟨hm, -, v, hv, rfl⟩, hrest⟩ := hx
      · rcases ih.1 hrest with ⟨hms, rfl⟩ | ⟨before, draft, after, v, rfl, hms, hv, rfl⟩
        · exact .inl ⟨List.forall_mem_cons.2 ⟨hm, hms⟩, rfl⟩
        · exact .inr ⟨m :: before, draft, after, v, rfl, List.forall_mem_cons.2 ⟨hm, hms⟩, hv, rfl⟩
      · obtain ⟨hms, rfl⟩ := readMembers_some_eq_ok_iff.1 hrest
        exact .inr ⟨[], m.2, ms, v, by rw [← hm]; rfl, hms, hv, rfl⟩
    · intro hx
      rcases hx with ⟨hms, rfl⟩ | ⟨before, draft, after, v, heq, hms, hv, rfl⟩
      · obtain ⟨hm, hms⟩ := List.forall_mem_cons.1 hms
        exact ⟨none, .inl ⟨hm, rfl⟩, ih.2 (.inl ⟨hms, rfl⟩)⟩
      · cases before with
        | nil =>
          cases heq
          exact ⟨some v, .inr ⟨rfl, trivial, v, hv, rfl⟩, readMembers_some_eq_ok_iff.2 ⟨hms, rfl⟩⟩
        | cons m' before =>
          cases heq
          obtain ⟨hm, hms⟩ := List.forall_mem_cons.1 hms
          exact ⟨none, .inl ⟨hm, rfl⟩, ih.2 (.inr ⟨before, draft, after, v, rfl, hms, hv, rfl⟩)⟩

/-- The one field read by position. -/
theorem readPositions_eq_ok_iff {d : JsonNode} {tooShort : Nat → DecodeError} {ending : Option DecodeError}
    {surplus : DecodeError} {items : List JsonDraft} {r : Option Json} :
    Field.readPositions tooShort ending surplus 0 none [payloadField] (items.map d.inner) = .ok r ↔
      ending = none ∧ ((items = [] ∧ r = none) ∨
        ∃ draft v, items = [draft] ∧ draft.valueWithin? (d.levels - 1) = some v ∧ r = some v) := by
  match items with
  | [] =>
    have hread : Field.readPositions tooShort ending surplus 0 none [payloadField]
        (([] : List JsonDraft).map d.inner) = (Source.raise ending).bind fun _ => (Source.raise ending).bind fun _ => .ok none := rfl
    rw [hread]
    cases ending with
    | some e => simp [Source.raise, Except.bind]
    | none => simpa [Source.raise, Except.bind] using eq_comm
  | [draft] =>
    have hread : Field.readPositions tooShort ending surplus 0 none [payloadField] ([draft].map d.inner) =
        ((d.inner draft).value.map some).bind fun s => (Source.raise ending).bind fun _ => .ok s := rfl
    rw [hread]
    simp only [List.cons_ne_nil, false_and, false_or, List.cons.injEq, and_true, exists_and_left, exists_eq_left',
      ← value_inner_eq_ok_iff]
    cases (d.inner draft).value with
    | error why => simp [Except.map, Except.bind]
    | ok v =>
      cases ending with
      | some e => simp [Source.raise, Except.map, Except.bind]
      | none => simpa [Source.raise, Except.map, Except.bind] using eq_comm
  | draft :: draft' :: items =>
    have hread : Field.readPositions tooShort ending surplus 0 none [payloadField]
        ((draft :: draft' :: items).map d.inner) =
          ((d.inner draft).value.map some).bind fun _ => .error surplus := rfl
    rw [hread]
    cases (d.inner draft).value <;> simp [Except.map, Except.bind]

/-- Values of this notation do not say where they stand. -/
theorem within_eq {α : Type} (d : JsonNode) (r : Except DecodeError α) : Source.within d r = r := by
  cases r <;> rfl

theorem checkMissing_payload (s : Option Json) : Field.checkMissing [payloadField] s = .ok () := rfl

theorem fill_object_eq_ok_iff {d : JsonNode} {members : List (Option String × JsonDraft)} {closed : Bool}
    {r : Option Json} (h : d.draft = .object members closed) :
    Field.fill "LooseEnvelope" [payloadField] none d = .ok r ↔
      closed = true ∧ (members.map d.entry).foldlM (Field.readMember [payloadField]) none = .ok r := by
  have hlayout : ∀ title, Source.layout title d =
      .ok (.members (members.map d.entry) (JsonNode.endingOf closed)) := fun title => by
    simp only [Source.layout, JsonNode.layout, h]
  simp only [Field.fill, within_eq, hlayout, checkMissing_payload, bind, Except.bind]
  generalize (members.map d.entry).foldlM (Field.readMember [payloadField]) none = found
  cases found <;> cases closed <;> simp [Source.raise, JsonNode.endingOf]

theorem fill_array_eq_ok_iff {d : JsonNode} {items : List JsonDraft} {closed : Bool} {r : Option Json}
    (h : d.draft = .array items closed) :
    Field.fill "LooseEnvelope" [payloadField] none d = .ok r ↔ closed = true ∧ ((items = [] ∧ r = none) ∨
      ∃ draft v, items = [draft] ∧ draft.valueWithin? (d.levels - 1) = some v ∧ r = some v) := by
  have hlayout : ∀ title, Source.layout title d =
      .ok (.positions ⟨items.map d.inner, JsonNode.endingOf closed⟩ (d.surplus items.length)) := fun title => by
    simp only [Source.layout, JsonNode.layout, h]
  have hending : JsonNode.endingOf closed = none ↔ closed = true := by cases closed <;> simp [JsonNode.endingOf]
  simp only [Field.fill, within_eq, hlayout, bind, Except.bind]
  rw [readPositions_eq_ok_iff, hending]

/-- What is neither an array nor an object is no record. -/
theorem fill_other {d : JsonNode} (harray : ∀ items closed, d.draft ≠ .array items closed)
    (hobject : ∀ members closed, d.draft ≠ .object members closed) (r : Option Json) :
    Field.fill "LooseEnvelope" [payloadField] none d ≠ .ok r := by
  have hlayout : ∀ title, Source.layout title d = d.refuse title := fun title => by
    rcases d with ⟨draft, l, b⟩
    cases draft with
    | array items closed => exact absurd rfl (harray items closed)
    | object members closed => exact absurd rfl (hobject members closed)
    | _ => rfl
  have hrefuse : ∀ title (layout : Layout JsonNode), d.refuse title ≠ .ok layout := fun title layout => by
    unfold JsonNode.refuse
    cases d.datum <;> simp [bind, Except.bind]
  simp only [Field.fill, within_eq, hlayout, bind, Except.bind]
  split
  · simp
  · rename_i layout h
    exact absurd h (hrefuse _ layout)

/-! ## Texts with a payload -/

theorem readPayload_eq_ok_iff_fill {body : String} {data : Json} : readPayload body = .ok data ↔
    (JsonDraft.ofText body).2 = true ∧ ∃ r, Field.fill "LooseEnvelope" [payloadField] none
      (⟨(JsonDraft.ofText body).1, JsonDraft.maxLevels, false⟩ : JsonNode) = .ok r ∧ r.getD .null = data := by
  unfold readPayload Json.decode
  rcases JsonDraft.ofText body with ⟨draft, whole⟩
  simp only [decodePayload_eq, bind, Except.bind]
  cases Field.fill "LooseEnvelope" [payloadField] none (⟨draft, JsonDraft.maxLevels, false⟩ : JsonNode) <;>
    cases whole <;> simp [Except.map]

/-- The texts that have a payload. -/
theorem readPayload_eq_ok_iff {body : String} {data : Json} : readPayload body = .ok data ↔
    Wraps body data ∨ (JsonDraft.readValue? body = some (.array []) ∧ data = .null) ∨
      JsonDraft.readValue? body = some (.array [data]) := by
  rw [readPayload_eq_ok_iff_fill]
  constructor
  · intro hx
    obtain ⟨hwhole, r, hfill, rfl⟩ := hx
    rcases htext : JsonDraft.ofText body with ⟨draft, whole⟩
    rw [htext] at hwhole hfill
    obtain rfl : whole = true := hwhole
    cases draft with
    | object members closed =>
      obtain ⟨rfl, hmembers⟩ := (fill_object_eq_ok_iff rfl).1 hfill
      rcases readMembers_none_eq_ok_iff.1 hmembers with ⟨hms, rfl⟩ | ⟨before, draft, after, v, rfl, hms, hv, rfl⟩
      · exact .inl (.none htext hms)
      · exact .inl (.data htext hms hv)
    | array items closed =>
      obtain ⟨rfl, ⟨rfl, rfl⟩ | ⟨draft, v, rfl, hv, rfl⟩⟩ := (fill_array_eq_ok_iff rfl).1 hfill
      · exact .inr (.inl ⟨JsonDraft.readValue?_eq_array_iff.2 ⟨[], htext, rfl⟩, rfl⟩)
      · exact .inr (.inr (JsonDraft.readValue?_eq_array_iff.2
          ⟨[draft], htext, JsonDraft.itemsWithin?_eq_singleton_iff.2 ⟨draft, rfl, hv⟩⟩))
    | _ => exact absurd hfill (fill_other (by simp) (by simp) r)
  · intro hx
    rcases hx with h | ⟨h, rfl⟩ | h
    · cases h with
      | data object besides value =>
        rw [object]
        exact ⟨rfl, _, (fill_object_eq_ok_iff rfl).2 ⟨rfl, readMembers_none_eq_ok_iff.2
          (.inr ⟨_, _, _, _, rfl, besides, value, rfl⟩)⟩, rfl⟩
      | none object besides =>
        rw [object]
        exact ⟨rfl, _, (fill_object_eq_ok_iff rfl).2 ⟨rfl, readMembers_none_eq_ok_iff.2 (.inl ⟨besides, rfl⟩)⟩, rfl⟩
    · obtain ⟨items, htext, hitems⟩ := JsonDraft.readValue?_eq_array_iff.1 h
      rw [htext]
      exact ⟨rfl, none, (fill_array_eq_ok_iff rfl).2
        ⟨rfl, .inl ⟨JsonDraft.itemsWithin?_eq_nil_iff.1 hitems, rfl⟩⟩, rfl⟩
    · obtain ⟨items, htext, hitems⟩ := JsonDraft.readValue?_eq_array_iff.1 h
      obtain ⟨draft, rfl, hv⟩ := JsonDraft.itemsWithin?_eq_singleton_iff.1 hitems
      rw [htext]
      exact ⟨rfl, some data, (fill_array_eq_ok_iff rfl).2 ⟨rfl, .inr ⟨draft, data, rfl, hv, rfl⟩⟩, rfl⟩

end Billing

end Tariff
