import Mathlib
import Tariff.Json.Source
import Tariff.Version.Codec
import Tariff.Proofs.Decimal.Printed
import Tariff.Proofs.Decode.Record
import Tariff.Proofs.Instant.Printed
/-
  Tariff.Proofs.Version.Codec — versions read back, and lists of versions.

  A version is read from the value it is written as, with the scale of its amount and the nanoseconds
  of its instants; only a zero loses its sign (`decodeValue_toJson`). How deep a value lies in a
  document makes no difference to its reading (`levelFree_decode`). So the items of a list are read as
  if each were in hand by itself, in their order, and the list is read if all of them are
  (`decodeValue_list_eq_ok_iff`).
-/

namespace Tariff

/-! ## Depth -/

namespace JsonNode

/-- The node as it would be at another depth. -/
def atLevel (l : Nat) (d : JsonNode) : JsonNode := { d with levels := l }

/-- What is read of a node does not depend on how deep it lies. -/
def LevelFree {α : Type} (read : JsonNode → α) : Prop := ∀ l d, read (d.atLevel l) = read d

theorem levelFree_optional {α : Type} {read : JsonNode → Except DecodeError α} (h : LevelFree read) :
    LevelFree (Source.optional read) := by
  intro l d
  have hpresent : Source.present (d.atLevel l) = (Source.present d).map (·.map (atLevel l)) := by
    rcases d with ⟨draft, _, _⟩
    cases draft <;> rfl
  unfold Source.optional
  rw [hpresent]
  cases Source.present d with
  | error why => rfl
  | ok p =>
    cases p with
    | none => rfl
    | some e =>
      have hread : read (e.atLevel l) = read e := h l e
      simp only [Except.map, Option.map, bind, Except.bind, hread]

theorem levelFree_string : LevelFree (Source.string : JsonNode → _) := fun _ _ => rfl

theorem levelFree_amount : LevelFree (Decimal.decode : JsonNode → _) := fun _ _ => rfl

theorem levelFree_instant : LevelFree (Instant.decode : JsonNode → _) := fun _ _ => rfl

/-! ### Records -/

variable {σ : Type} {fields : List (Field JsonNode σ)}

theorem readMember_atLevel (h : ∀ f ∈ fields, ∀ s, LevelFree (f.read · s)) (l : Nat) (s : σ)
    (entry : Except DecodeError String × JsonNode) :
    Field.readMember fields s (entry.1, entry.2.atLevel l) = Field.readMember fields s entry :=
  Field.readMember_congr rfl rfl fun field hfield => h field hfield s l entry.2

theorem readMembers_atLevel (h : ∀ f ∈ fields, ∀ s, LevelFree (f.read · s)) (l : Nat) (s : σ)
    (entries : List (Except DecodeError String × JsonNode)) :
    (entries.map fun e => (e.1, e.2.atLevel l)).foldlM (Field.readMember fields) s =
      entries.foldlM (Field.readMember fields) s := by
  induction entries generalizing s with
  | nil => rfl
  | cons e es ih => simp only [List.map_cons, List.foldlM_cons, readMember_atLevel h, ih]

theorem readPositions_atLevel (h : ∀ f ∈ fields, ∀ s, LevelFree (f.read · s)) (l : Nat)
    (tooShort : Nat → DecodeError) (ending : Option DecodeError) (surplus : DecodeError) (index : Nat) (s : σ)
    (items : List JsonNode) :
    Field.readPositions tooShort ending surplus index s fields (items.map (atLevel l)) =
      Field.readPositions tooShort ending surplus index s fields items := by
  induction fields generalizing index s items with
  | nil => cases items <;> rfl
  | cons field fields ih =>
    have hrest : ∀ f ∈ fields, ∀ s, LevelFree (f.read · s) := fun f hf => h f (List.mem_cons_of_mem field hf)
    cases items with
    | nil => rfl
    | cons d items =>
      have hread : field.read (d.atLevel l) s = field.read d s := h field List.mem_cons_self s l d
      simp only [List.map_cons, Field.readPositions, hread, ih hrest]

/-- A record whose fields do not depend on depth does not depend on it either. -/
theorem levelFree_fill (h : ∀ f ∈ fields, ∀ s, LevelFree (f.read · s)) (title : String) (start : σ) :
    LevelFree (Field.fill title fields start) := by
  intro l d
  rcases d with ⟨draft, levels, inHand⟩
  cases draft with
  | array items closed =>
    have hmap : items.map (JsonNode.mk (.array items closed) l inHand).inner =
        (items.map (JsonNode.mk (.array items closed) levels inHand).inner).map (atLevel (l - 1)) := by
      rw [List.map_map]
      rfl
    show Field.fill title fields start ⟨.array items closed, l, inHand⟩ = _
    simp only [Field.fill, Source.layout, layout, hmap, bind, Except.bind, readPositions_atLevel h]
    rfl
  | object members closed =>
    have hmap : members.map (JsonNode.mk (.object members closed) l inHand).entry =
        (members.map (JsonNode.mk (.object members closed) levels inHand).entry).map
          fun e => (e.1, e.2.atLevel (l - 1)) := by
      rw [List.map_map]
      rfl
    show Field.fill title fields start ⟨.object members closed, l, inHand⟩ = _
    simp only [Field.fill, Source.layout, layout, hmap, bind, Except.bind, readMembers_atLevel h]
    rfl
  | _ => rfl

end JsonNode

/-! ## Versions -/

namespace Version

open JsonNode in
theorem levelFree_decode : LevelFree (decode : JsonNode → _) := by
  have hfields : ∀ f ∈ (fields : List (Field JsonNode Partial)), ∀ s, LevelFree (f.read · s) := by
    have hmap : ∀ {α : Type} {read : JsonNode → Except DecodeError α}, LevelFree read →
        ∀ (set : α → Partial → Partial) s, LevelFree fun d => (read d).map fun a => set a s :=
      fun h set s l d => congrArg (Except.map fun a => set a s) (h l d)
    simp only [fields, List.forall_mem_cons]
    exact ⟨hmap levelFree_string _, hmap (levelFree_optional levelFree_string) _, hmap levelFree_string _,
      hmap levelFree_amount _, hmap levelFree_instant _, hmap (levelFree_optional levelFree_instant) _, by simp⟩
  intro l d
  simp only [decode, levelFree_fill hfields "PriceAmount" _ l d]

/-- The version without the sign of a zero. -/
def unsignedZero (v : Version) : Version := { v with amount := v.amount.unsignedZero }

theorem unsignedZero_eq_self {v : Version} (h : v.amount.negative = true → v.amount.mantissa ≠ 0) :
    v.unsignedZero = v := by
  rw [unsignedZero, Decimal.unsignedZero_eq_self h]

theorem optional_ofText? {α : Type} {read : JsonNode → Except DecodeError α} {l : Nat} {b : Bool}
    (write : α → String) (h : ∀ a, read ⟨.string (some (write a)), l, b⟩ = .ok a) (found : Option α) :
    Source.optional read ⟨.ofValue (.ofText? (found.map write)), l, b⟩ = .ok found := by
  cases found with
  | none => rfl
  | some a =>
    have hsome : Source.optional read ⟨.string (some (write a)), l, b⟩ =
        (read ⟨.string (some (write a)), l, b⟩).bind fun a => .ok (some a) := rfl
    rw [h] at hsome
    exact hsome

/-- The members of a version in hand, as a decoder meets them. -/
def entries (v : Version) : List (Except DecodeError String × JsonNode) :=
  [(.ok "id", ⟨.string (some v.id), 127, true⟩),
   (.ok "price_id", ⟨.ofValue (.ofText? v.priceId), 127, true⟩),
   (.ok "currency", ⟨.string (some v.currency), 127, true⟩),
   (.ok "amount", ⟨.string (some v.amount.plain), 127, true⟩),
   (.ok "effective_from", ⟨.string (some v.effectiveFrom.text), 127, true⟩),
   (.ok "effective_to", ⟨.ofValue (.ofText? (v.effectiveTo.map Instant.text)), 127, true⟩)]

theorem readMembers_entries (v : Version) :
    v.entries.foldlM (Field.readMember fields) ⟨none, none, none, none, none, none⟩ =
      .ok ⟨some v.id, some v.priceId, some v.currency, some v.amount.unsignedZero, some v.effectiveFrom,
        some v.effectiveTo⟩ := by
  have hstring : ∀ s : String, Source.string (⟨.string (some s), 127, true⟩ : JsonNode) = .ok s := fun _ => rfl
  have hprice : Source.optional Source.string (⟨.ofValue (.ofText? v.priceId), 127, true⟩ : JsonNode) =
      .ok v.priceId := by
    simpa using optional_ofText? (fun s => s) hstring v.priceId
  have hamount : Decimal.decode (⟨.string (some v.amount.plain), 127, true⟩ : JsonNode) =
      .ok v.amount.unsignedZero := by
    simp [Decimal.decode, Source.datum, JsonNode.datum, bind, Except.bind, Decimal.readAny?_plain]
  have hinstant : ∀ t : Instant, Instant.decode (⟨.string (some t.text), 127, true⟩ : JsonNode) = .ok t := by
    intro t
    simp [Instant.decode, Source.within, Source.text, JsonNode.text, bind, Except.bind, Instant.readRelaxed_text,
      Except.mapError]
  have hend := optional_ofText? Instant.text hinstant v.effectiveTo
  simp [entries, Field.readMember, fields, Field.required, Field.defaulted, bind, Except.bind, Except.map, pure,
    Except.pure, hstring, hprice, hamount, hinstant, hend]

/-- A version is read from the value that it is written as. -/
theorem decodeValue_toJson (v : Version) : Json.decodeValue decode v.toJson = .ok v.unsignedZero := by
  have hfill : Field.fill "PriceAmount" fields ⟨none, none, none, none, none, none⟩
      (⟨.ofValue v.toJson, JsonDraft.maxLevels, true⟩ : JsonNode) =
      .ok ⟨some v.id, some v.priceId, some v.currency, some v.amount.unsignedZero, some v.effectiveFrom,
        some v.effectiveTo⟩ := by
    show Source.within _ ((v.entries.foldlM (Field.readMember fields) _).bind _) = _
    rw [readMembers_entries]
    rfl
  rw [Json.decodeValue, decode, hfill]
  rfl

/-- A version is the one that is read from the value it is written as, every digit of its amount and every
nanosecond of its instants included; unless its amount is a zero with a sign, which reads as one without. -/
theorem decodeValue_toJson_eq_self_iff (v : Version) :
    Json.decodeValue decode v.toJson = .ok v ↔ (v.amount.negative = true → v.amount.mantissa ≠ 0) := by
  rw [decodeValue_toJson, Except.ok.injEq]
  constructor
  · intro hself hneg hzero
    have hamount : v.amount.unsignedZero = v.amount := congrArg Version.amount hself
    rw [← hamount, Decimal.unsignedZero] at hneg
    simp [hzero] at hneg
  · exact unsignedZero_eq_self

end Version

/-! ## Lists -/

/-- A traversal gives a list if every item gives the item in its place. -/
theorem mapM_eq_ok_iff {α β ε : Type} {f : α → Except ε β} {xs : List α} {ys : List β} :
    xs.mapM f = .ok ys ↔ List.Forall₂ (fun x y => f x = .ok y) xs ys := by
  induction xs generalizing ys with
  | nil => cases ys <;> simp [pure, Except.pure]
  | cons x xs ih =>
    rw [List.mapM_cons]
    cases hx : f x with
    | error why => cases ys <;> simp [bind, Except.bind, hx]
    | ok y =>
      cases hxs : xs.mapM f with
      | error why =>
        have hnone : ∀ zs, ¬ List.Forall₂ (fun x y => f x = .ok y) xs zs := fun zs h => by
          rw [← ih, hxs] at h
          cases h
        cases ys <;> simp [bind, Except.bind, hnone]
      | ok zs => cases ys <;> simp [bind, Except.bind, pure, Except.pure, hx, ← ih, hxs]

theorem JsonDraft.ofItems_eq_map (vs : List Json) : JsonDraft.ofItems vs = vs.map JsonDraft.ofValue := by
  induction vs with
  | nil => rfl
  | cons v vs ih => rw [JsonDraft.ofItems, ih, List.map_cons]

/-- A list in hand is read if each of its items is, as it would be by itself, and gives them in order. -/
theorem Json.decodeValue_list_eq_ok_iff {α : Type} {read : JsonNode → Except DecodeError α}
    (h : JsonNode.LevelFree read) {vs : List Json} {found : List α} :
    decodeValue (Source.list read) (.array vs) = .ok found ↔
      List.Forall₂ (fun v a => decodeValue read v = .ok a) vs found := by
  have hnodes : ((JsonDraft.ofItems vs).map
      (JsonNode.mk (.array (JsonDraft.ofItems vs) true) JsonDraft.maxLevels true).inner).mapM read =
        vs.mapM (decodeValue read) := by
    have hread : (fun v => read ⟨.ofValue v, JsonDraft.maxLevels - 1, true⟩) = decodeValue read :=
      funext fun v => h (JsonDraft.maxLevels - 1) ⟨.ofValue v, JsonDraft.maxLevels, true⟩
    rw [← hread, JsonDraft.ofItems_eq_map, List.map_map, List.mapM_map]
    rfl
  have hlist : decodeValue (Source.list read) (.array vs) = vs.mapM (decodeValue read) := by
    simp only [decodeValue, Source.list, Source.items, JsonNode.items, JsonDraft.ofValue, bind, Except.bind]
    rw [hnodes]
    cases vs.mapM (decodeValue read) <;> rfl
  rw [hlist, mapM_eq_ok_iff]

end Tariff
