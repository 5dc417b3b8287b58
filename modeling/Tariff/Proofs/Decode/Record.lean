import Mathlib
import Tariff.Decode.Source
/-
  Tariff.Proofs.Decode.Record — what is read into a record.

  A reading that succeeds has succeeded in each of its steps (`bind_eq_ok_iff` and the lemmas beside it). A record is
  filled member by member, so what each of its fields keeps holds of the whole (`Field.Keeps.fill`).
-/

namespace Tariff

/-! ## Readings that succeed -/

section
variable {ε ε' α β : Type}

theorem ok_bind (a : α) (f : α → Except ε β) : (Except.ok a >>= f) = f a := rfl

theorem error_bind (e : ε) (f : α → Except ε β) : (Except.error e >>= f) = .error e := rfl

theorem map_ok (f : α → β) (a : α) : f <$> (.ok a : Except ε α) = .ok (f a) := rfl

theorem bind_eq_ok_iff {x : Except ε α} {f : α → Except ε β} {b : β} :
    (x >>= f) = .ok b ↔ ∃ a, x = .ok a ∧ f a = .ok b := by
  cases x with
  | error e => simp [error_bind]
  | ok a => simp [ok_bind]

theorem exists_of_bind_eq_ok {x : Except ε α} {f : α → Except ε β} {b : β} (h : (x >>= f) = .ok b) :
    ∃ a, x = .ok a ∧ f a = .ok b := bind_eq_ok_iff.1 h

theorem map_eq_ok_iff {x : Except ε α} {f : α → β} {b : β} : x.map f = .ok b ↔ ∃ a, x = .ok a ∧ f a = b := by
  cases x with
  | error e => simp [Except.map]
  | ok a => simp [Except.map]

theorem mapError_eq_ok_iff {x : Except ε α} {f : ε → ε'} {a : α} : x.mapError f = .ok a ↔ x = .ok a := by
  cases x with
  | error e => simp [Except.mapError]
  | ok b => simp [Except.mapError]

end

/-! ## Fields -/

namespace Field

variable {δ σ : Type} {P : σ → Prop} {fields : List (Field δ σ)}

/-- Whatever one of the fields is read from, this goes on to hold of the record. -/
def Keeps (P : σ → Prop) (fields : List (Field δ σ)) : Prop :=
  ∀ field ∈ fields, ∀ d s s', P s → field.read d s = .ok s' → P s'

/-- A field goes on to let it hold if what is set by any value that it can have does. -/
theorem keeps_cons {α : Type} {field : Field δ σ} {set : α → σ → σ} {read : δ → Except DecodeError α}
    (hfield : field.read = fun d s => (read d).map fun a => set a s)
    (hset : ∀ d a s, read d = .ok a → P s → P (set a s)) (hrest : Keeps P fields) : Keeps P (field :: fields) := by
  intro f hf d s s' hs hread
  rcases List.mem_cons.1 hf with rfl | hf
  · rw [hfield] at hread
    obtain ⟨a, ha, rfl⟩ := map_eq_ok_iff.1 hread
    exact hset d a s ha hs
  · exact hrest f hf d s s' hs hread

theorem keeps_nil : Keeps P ([] : List (Field δ σ)) := by
  intro field hfield
  cases hfield

variable [Source δ]

/-- A member that is no field is passed over. -/
theorem readMember_of_unknown {name : String} (h : fields.find? (·.name == name) = none) (d : δ) (s : σ) :
    readMember fields s (.ok name, d) = Source.skip d >>= fun _ => .ok s := by
  rw [readMember]
  simp only [ok_bind, h]

theorem readMember_of_field {name : String} {field : Field δ σ} (h : fields.find? (·.name == name) = some field) (d : δ)
    (s : σ) : readMember fields s (.ok name, d) =
      if field.isSet s then .error (.of (.duplicateField name)) else field.read d s := by
  rw [readMember]
  simp only [ok_bind, h]

/-- A member is read alike if its node is, whatever it is asked for. -/
theorem readMember_congr {entry entry' : Except DecodeError String × δ} {s : σ} (hname : entry'.1 = entry.1)
    (hskip : Source.skip entry'.2 = Source.skip entry.2)
    (hread : ∀ field ∈ fields, field.read entry'.2 s = field.read entry.2 s) :
    readMember fields s entry' = readMember fields s entry := by
  obtain ⟨e | name, d⟩ := entry
  all_goals
    obtain ⟨_, d'⟩ := entry'
    cases hname
  · rfl
  cases hfind : fields.find? (·.name == name) with
  | none => simp only [readMember_of_unknown hfind, hskip]
  | some field => simp only [readMember_of_field hfind, hread field (List.mem_of_find?_eq_some hfind)]

theorem Keeps.readMember (h : Keeps P fields) {entry : Except DecodeError String × δ} {s s' : σ} (hs : P s)
    (hread : readMember fields s entry = .ok s') : P s' := by
  obtain ⟨e | name, d⟩ := entry
  · cases hread
  cases hfind : fields.find? (·.name == name) with
  | none =>
    rw [readMember_of_unknown hfind] at hread
    obtain ⟨-, -, hread⟩ := exists_of_bind_eq_ok hread
    cases hread
    exact hs
  | some field =>
    rw [readMember_of_field hfind] at hread
    split at hread
    · cases hread
    · exact h field (List.mem_of_find?_eq_some hfind) _ _ _ hs hread

theorem Keeps.readMembers (h : Keeps P fields) {entries : List (Except DecodeError String × δ)} {s s' : σ}
    (hs : P s) (hread : entries.foldlM (Field.readMember fields) s = .ok s') : P s' := by
  induction entries generalizing s with
  | nil =>
    cases hread
    exact hs
  | cons entry entries ih =>
    rw [List.foldlM_cons] at hread
    obtain ⟨middle, hfirst, hrest⟩ := exists_of_bind_eq_ok hread
    exact ih (h.readMember hs hfirst) hrest

omit [Source δ] in
theorem Keeps.readPositions {tooShort : Nat → DecodeError} {ending : Option DecodeError} {surplus : DecodeError}
    {items : List δ} (h : Keeps P fields) {index : Nat} {s s' : σ} (hs : P s)
    (hread : Field.readPositions tooShort ending surplus index s fields items = .ok s') : P s' := by
  induction fields generalizing items index s with
  | nil =>
    cases items with
    | nil =>
      obtain ⟨-, -, hread⟩ := exists_of_bind_eq_ok hread
      cases hread
      exact hs
    | cons => cases hread
  | cons field fields ih =>
    have hrest : Keeps P fields := fun f hf => h f (List.mem_cons_of_mem _ hf)
    cases items with
    | nil =>
      obtain ⟨-, -, hread⟩ := exists_of_bind_eq_ok hread
      split at hread
      · exact ih hrest hs hread
      · cases hread
    | cons item items =>
      obtain ⟨middle, hfirst, hread⟩ := exists_of_bind_eq_ok hread
      exact ih hrest (h field List.mem_cons_self _ _ _ hs hfirst) hread

/-- What holds of the record at first and goes on to hold as its fields are read holds of the whole record. -/
theorem Keeps.fill (h : Keeps P fields) {title : String} {start s : σ} {d : δ} (hstart : P start)
    (hfill : Field.fill title fields start d = .ok s) : P s := by
  unfold Field.fill Source.within at hfill
  obtain ⟨layout, -, hread⟩ := exists_of_bind_eq_ok (mapError_eq_ok_iff.1 hfill)
  cases layout with
  | members entries ending =>
    obtain ⟨filled, hmembers, hread⟩ := exists_of_bind_eq_ok hread
    obtain ⟨-, -, hread⟩ := exists_of_bind_eq_ok hread
    obtain ⟨-, -, hread⟩ := exists_of_bind_eq_ok hread
    cases hread
    exact h.readMembers hstart hmembers
  | positions items surplus => exact h.readPositions hstart hread

end Field

end Tariff
