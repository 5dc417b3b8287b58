import Mathlib
import Tariff.Proposal.Codec
import Tariff.Proofs.Decode.Record
/-
  Tariff.Proofs.Proposal.AmountField — the amount among the fields of a proposal.

  No other field is read in another way because of the amount (`Passes`). So a record whose amount is read at a node
  is read with any other node there, and is the same but for the amount (`ReadsAmount`), whether its fields have names
  (`readsAmount_members`) or stand in order (`readsAmount_positions`); and so is the proposal (`ReadsAmount.decode`).
-/

namespace Tariff.Proposal

open Tariff.Field (readMember readPositions)

/-- The same record with this amount. -/
def Partial.withAmount (s : Partial) (amount : String) : Partial := { s with amount := some amount }

/-- The reading is the same whatever the amount is, and leaves the amount as it is. -/
def Passes (f : Partial → Except DecodeError Partial) : Prop :=
  ∀ ⦃s t : Partial⦄ ⦃a : String⦄, f (s.withAmount a) = .ok t →
    ∃ u : Partial, t = u.withAmount a ∧ ∀ b, f (s.withAmount b) = .ok (u.withAmount b)

section
variable {f g : Partial → Except DecodeError Partial} {e : DecodeError}

theorem passes_ok : Passes .ok := by
  intro s t a h
  cases h
  exact ⟨s, rfl, fun b => rfl⟩

theorem passes_error : Passes fun _ => .error e := by
  intro s t a h
  cases h

theorem Passes.bind (hf : Passes f) (hg : Passes g) : Passes fun s => f s >>= g := by
  intro s t a h
  obtain ⟨middle, hfirst, hrest⟩ := exists_of_bind_eq_ok h
  obtain ⟨u, rfl, hu⟩ := hf hfirst
  obtain ⟨v, rfl, hv⟩ := hg hrest
  exact ⟨v, rfl, fun b => bind_eq_ok_iff.2 ⟨_, hu b, hv b⟩⟩

theorem Passes.after (hf : Passes f) (x : Except DecodeError Unit) : Passes fun s => x >>= fun _ => f s := by
  cases x with
  | error e => exact passes_error
  | ok => exact hf

theorem Passes.unless (hf : Passes f) {isSet : Partial → Bool}
    (hset : ∀ s a b, isSet (Partial.withAmount s a) = isSet (Partial.withAmount s b)) :
    Passes fun s => if isSet s then .error e else f s := by
  intro s t a h
  simp only at h ⊢
  split at h
  · cases h
  · rename_i hunset
    obtain ⟨u, hu, hread⟩ := hf h
    refine ⟨u, hu, fun b => ?_⟩
    rw [if_neg (hset s a b ▸ hunset)]
    exact hread b

end

/-! ## Fields -/

theorem passes_read {δ : Type} {name : String} {get : Partial → Option String} {set : String → Partial → Partial}
    {read : δ → Except DecodeError String} (hset : ∀ v s a, set v (s.withAmount a) = (set v s).withAmount a) (d : δ) :
    Passes ((Field.defaulted name get set read).read d) := by
  intro s t a h
  obtain ⟨v, hv, rfl⟩ := map_eq_ok_iff.1 h
  exact ⟨set v s, hset v s a, fun b => map_eq_ok_iff.2 ⟨v, hv, hset v s b⟩⟩

section
variable {δ : Type} [Source δ]

theorem decodeAmount_eq_ok_iff {d : δ} {s : String} :
    decodeAmount d = .ok s ↔ ∃ v, Source.wholeDatum d = .ok v ∧ typedAmount? v = some s := by
  unfold decodeAmount
  constructor
  · intro h
    obtain ⟨v, hv, h⟩ := exists_of_bind_eq_ok h
    cases ht : typedAmount? v with
    | none =>
      rw [ht] at h
      cases h
    | some t =>
      rw [ht] at h
      cases h
      exact ⟨v, hv, ht⟩
  · rintro ⟨v, hv, ht⟩
    simp only [hv, bind, Except.bind, ht]

/-- A member is read alike if its node answers alike what a field may ask for. -/
theorem readMember_alike {entry entry' : Except DecodeError String × δ} (hname : entry'.1 = entry.1)
    (hskip : Source.skip entry'.2 = Source.skip entry.2) (hstring : Source.string entry'.2 = Source.string entry.2)
    (hamount : decodeAmount entry'.2 = decodeAmount entry.2) (s : Partial) :
    readMember fields s entry' = readMember fields s entry := by
  refine Field.readMember_congr hname hskip fun field hfield => ?_
  simp only [fields, List.mem_cons, List.not_mem_nil, or_false] at hfield
  rcases hfield with rfl | rfl | rfl
  · exact congrArg (Except.map _) hstring
  · exact congrArg (Except.map _) hamount
  · exact congrArg (Except.map _) hstring

/-- A member behind the amount: another field, or one that is passed over. The amount is not read twice. -/
theorem passes_readMember (entry : Except DecodeError String × δ) : Passes fun s => readMember fields s entry := by
  obtain ⟨e | name, d⟩ := entry
  · exact passes_error
  cases hfind : (fields (δ := δ)).find? (·.name == name) with
  | none =>
    simp only [Field.readMember_of_unknown hfind]
    exact passes_ok.after (Source.skip d)
  | some field =>
    simp only [Field.readMember_of_field hfind]
    have hmem := List.mem_of_find?_eq_some hfind
    simp only [fields, List.mem_cons, List.not_mem_nil, or_false] at hmem
    rcases hmem with rfl | rfl | rfl
    · refine (passes_read ?_ d).unless ?_ <;> intros <;> rfl
    · intro s t a h
      cases h
    · refine (passes_read ?_ d).unless ?_ <;> intros <;> rfl

theorem passes_members (entries : List (Except DecodeError String × δ)) :
    Passes fun s => entries.foldlM (readMember fields) s := by
  induction entries with
  | nil => exact passes_ok
  | cons entry entries ih =>
    simp only [List.foldlM_cons]
    exact (passes_readMember entry).bind ih

/-- The fields behind the amount, which is number 1. -/
theorem passes_positions (tooShort : Nat → DecodeError) (ending : Option DecodeError) (surplus : DecodeError)
    (items : List δ) : Passes fun s => readPositions tooShort ending surplus 2 s (fields.drop 2) items := by
  rcases items with _ | ⟨item, _ | ⟨extra, items⟩⟩
  · exact (passes_ok.after (Source.raise ending)).after (Source.raise ending)
  · exact (passes_read (fun _ _ _ => rfl) item).bind (passes_ok.after (Source.raise ending))
  · exact (passes_read (fun _ _ _ => rfl) item).bind passes_error

/-! ## Records -/

/-- Of a record with this node for its amount: the amount is what is read there, and with another node it is the same
record but for the amount. -/
def ReadsAmount (record : δ → Except DecodeError Partial) : Prop :=
  ∀ ⦃x : δ⦄ ⦃s : Partial⦄, record x = .ok s → ∃ (a : String) (u : Partial), decodeAmount x = .ok a ∧
    s = u.withAmount a ∧ ∀ y b, decodeAmount y = .ok b → record y = .ok (u.withAmount b)

theorem readsAmount_error {e : DecodeError} : ReadsAmount fun _ : δ => .error e := by
  intro x s h
  cases h

/-- It does not matter what is read behind the amount. -/
theorem Passes.readsAmount {rest : Partial → Except DecodeError Partial} (h : Passes rest) (s : Partial) :
    ReadsAmount fun x : δ => (decodeAmount x).map s.withAmount >>= rest := by
  intro x t hx
  obtain ⟨filled, hamount, hrest⟩ := exists_of_bind_eq_ok hx
  obtain ⟨a, ha, rfl⟩ := map_eq_ok_iff.1 hamount
  obtain ⟨u, hu, hothers⟩ := h hrest
  refine ⟨a, u, ha, hu, fun y b hy => ?_⟩
  exact bind_eq_ok_iff.2 ⟨_, map_eq_ok_iff.2 ⟨b, hy, rfl⟩, hothers b⟩

/-- The record of these members, with a node between them for its amount. -/
def membersWith (before after : List (Except DecodeError String × δ)) (ending : Option DecodeError) (x : δ) :
    Except DecodeError Partial := do
  let s ← (before ++ (.ok "amount", x) :: after).foldlM (readMember fields) ⟨none, none, none⟩
  Source.raise ending
  .ok s

theorem membersWith_map {μ : Type} {f g : μ → Except DecodeError String × δ}
    (h : ∀ s m, readMember fields s (g m) = readMember fields s (f m)) (before after : List μ)
    (ending : Option DecodeError) (x : δ) :
    membersWith (before.map g) (after.map g) ending x = membersWith (before.map f) (after.map f) ending x := by
  simp only [membersWith, List.foldlM_append, List.foldlM_cons, List.foldlM_map, h]

theorem readsAmount_members (before after : List (Except DecodeError String × δ)) (ending : Option DecodeError) :
    ReadsAmount (membersWith before after ending) := by
  have hamount : ∀ (x : δ) s, readMember fields s (.ok "amount", x) =
      if s.amount.isSome then .error (.of (.duplicateField "amount")) else (decodeAmount x).map s.withAmount :=
    fun _ _ => rfl
  have hrest := (passes_members after).bind (passes_ok.after (Source.raise ending))
  unfold membersWith
  simp only [List.foldlM_append, List.foldlM_cons, hamount, bind_assoc]
  cases before.foldlM (readMember fields) ⟨none, none, none⟩ with
  | error e => exact readsAmount_error
  | ok s =>
    show ReadsAmount fun x => (if s.amount.isSome then _ else _) >>= _
    cases s.amount.isSome with
    | true => exact readsAmount_error
    | false => exact hrest.readsAmount s

theorem readsAmount_positions (tooShort : Nat → DecodeError) (ending : Option DecodeError) (surplus : DecodeError)
    (first : δ) (rest : List δ) (start : Partial) :
    ReadsAmount fun x => readPositions tooShort ending surplus 0 start fields (first :: x :: rest) := by
  have hread : ∀ x, readPositions tooShort ending surplus 0 start fields (first :: x :: rest) =
      ((Source.string first).map fun v => { start with currency := some v }) >>= fun s =>
        (decodeAmount x).map s.withAmount >>= fun s => readPositions tooShort ending surplus 2 s (fields.drop 2) rest :=
    fun _ => rfl
  simp only [hread]
  cases (Source.string first).map fun v => { start with currency := some v } with
  | error e => exact readsAmount_error
  | ok s => exact (passes_positions tooShort ending surplus rest).readsAmount s

/-! ## Proposals -/

/-- The proposal at the node is read as this record. -/
def Holds (d : δ) (record : Except DecodeError Partial) : Prop :=
  ∀ s, Field.fill "PriceAmountProposal" fields ⟨none, none, none⟩ d = .ok s ↔ record = .ok s

variable {d x : δ} {ending : Option DecodeError}

theorem holds_members {before after : List (Except DecodeError String × δ)}
    (h : ∀ title, Source.layout title d = .ok (.members (before ++ (.ok "amount", x) :: after) ending)) :
    Holds d (membersWith before after ending x) := by
  intro s
  unfold Field.fill Source.within
  rw [h, mapError_eq_ok_iff]
  rfl

theorem exists_holds_positions : ∃ tooShort : Nat → DecodeError, ∀ {d x first : δ} {rest : List δ}
    {ending : Option DecodeError} {surplus : DecodeError},
    (∀ title, Source.layout title d = .ok (.positions ⟨first :: x :: rest, ending⟩ surplus)) →
      Holds d (readPositions tooShort ending surplus 0 ⟨none, none, none⟩ fields (first :: x :: rest)) := by
  refine ⟨?tooShort, fun {d x first rest ending surplus} h s => ?read⟩
  case read =>
    unfold Field.fill Source.within
    rw [h, mapError_eq_ok_iff]
    rfl

/-- The amount of a proposal is what is read at its node, and with another node there it is the same proposal but for
the amount. -/
theorem ReadsAmount.decode {record : δ → Except DecodeError Partial} (h : ReadsAmount record) {p : Proposal}
    (hx : Holds d (record x)) (hd : decode d = .ok p) : decodeAmount x = .ok p.amount ∧
      ∀ (d' y : δ) (b : String), Holds d' (record y) → decodeAmount y = .ok b →
        Proposal.decode d' = .ok { p with amount := b } := by
  obtain ⟨s, hs, hd⟩ := exists_of_bind_eq_ok hd
  cases hd
  obtain ⟨a, u, ha, rfl, hothers⟩ := h ((hx s).1 hs)
  refine ⟨ha, fun d' y b hy hb => ?_⟩
  have hs' := (hy _).2 (hothers y b hb)
  unfold Proposal.decode
  rw [hs']
  rfl

end

end Tariff.Proposal
