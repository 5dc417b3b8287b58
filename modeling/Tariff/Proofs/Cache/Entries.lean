import Mathlib
import Tariff.Cache.Basic
/-
  Tariff.Proofs.Cache.Entries — a cache seen as its entries by key.

  Each operation has one equation for the entry of every key afterwards: removing takes one key
  away, putting sets one key, and looking a key up takes that key away if its entry has expired.
  `Holds` says that whatever is kept is what a table says; the operations keep that true as long
  as what is put is in the table.
-/

namespace Tariff

/-! ## Lists -/

theorem eq_append_of_concat_eq {α : Type} {vs before after : List α} {v x : α}
    (h : vs ++ [v] = before ++ x :: after) :
    (vs = before ∧ v = x ∧ after = []) ∨ ∃ after', after = after' ++ [v] ∧ vs = before ++ x :: after' := by
  rcases List.eq_nil_or_concat after with rfl | ⟨after', y, rfl⟩
  · obtain ⟨rfl, hx⟩ := List.append_inj' h rfl
    exact .inl ⟨rfl, (List.cons.inj hx).1, rfl⟩
  · rw [List.concat_eq_append, ← List.cons_append, ← List.append_assoc] at h
    obtain ⟨rfl, hy⟩ := List.append_inj' h rfl
    obtain rfl := (List.cons.inj hy).1
    exact .inr ⟨after', List.concat_eq_append, rfl⟩

variable {K V : Type} [DecidableEq K]

theorem lookup_cons_eq (key k : K) (v : V) (es : List (K × V)) :
    List.lookup k ((key, v) :: es) = if k = key then some v else es.lookup k := by
  by_cases hk : k = key
  · simp [hk]
  · have hb : (k == key) = false := beq_eq_false_iff_ne.2 hk
    simp [List.lookup_cons, hb, hk]

theorem lookup_filter_ne (es : List (K × V)) (key k : K) :
    (es.filter fun e => e.1 ≠ key).lookup k = if k = key then none else es.lookup k := by
  induction es with
  | nil => simp
  | cons e es ih =>
    obtain ⟨a, v⟩ := e
    by_cases ha : a = key
    · subst ha
      rw [List.filter_cons_of_neg (by simp), ih, lookup_cons_eq]
      by_cases hk : k = a <;> simp [hk]
    · rw [List.filter_cons_of_pos (by simpa using ha), lookup_cons_eq, lookup_cons_eq, ih]
      by_cases hk : k = a
      · subst hk
        simp [ha]
      · simp [hk]

namespace Cache

/-! ## Operations -/

@[simp] theorem entry?_empty (k : K) : entry? (empty : Cache K V) k = none := rfl

theorem entry?_remove (c : Cache K V) (key k : K) :
    entry? (c.remove key) k = if k = key then none else c.entry? k :=
  lookup_filter_ne c.entries key k

/-- The entry of a key that has not expired. -/
def live? (c : Cache K V) (now : Ticks) (key : K) : Option (CacheEntry V) :=
  Option.filter (!·.isExpired now) <| c.entry? key

theorem live?_eq_some {c : Cache K V} {now : Ticks} {key : K} {e : CacheEntry V} (h : c.live? now key = some e) :
    c.entry? key = some e := (Option.filter_eq_some_iff.1 h).1

theorem good_of_live {c : Cache K V} {now : Ticks} {key : K} {e : CacheEntry V} (h : c.live? now key = some e) :
    e.isExpired now = false := by simpa using (Option.filter_eq_some_iff.1 h).2

theorem expired_of_miss {c : Cache K V} {now : Ticks} {key : K} {e : CacheEntry V} (h : c.live? now key = none)
    (he : c.entry? key = some e) : e.isExpired now = true := by
  rw [live?, he] at h
  simpa [Option.filter] using h

theorem get_fst (c : Cache K V) (now : Ticks) (key : K) :
    (c.get now key).1 = (c.live? now key).map (·.value) := by
  unfold get live?
  cases c.entry? key with
  | none => rfl
  | some e => cases he : e.isExpired now <;> simp [he, Option.filter]

/-- Looking a key up leaves the entries of all others, and its own if it has not expired. -/
theorem entry?_get (c : Cache K V) (now : Ticks) (key k : K) :
    entry? (c.get now key).2 k = if k = key then c.live? now key else c.entry? k := by
  unfold get live?
  cases hc : c.entry? key with
  | none =>
    by_cases hk : k = key
    · simp [hk, hc]
    · simp [hk]
  | some e =>
    cases he : e.isExpired now
    · by_cases hk : k = key
      · simp [hk, hc, he, Option.filter]
      · simp [hk, he]
    · simp [he, entry?_remove, Option.filter]

theorem entry?_put {c c' : Cache K V} {now : Ticks} {key : K} {value : V} {ttl : Option Ticks}
    (h : c.put? now key value ttl = some c') (k : K) :
    ∃ expiresAt, expiry? now ttl = some expiresAt ∧
      c'.entry? k = if k = key then some ⟨value, expiresAt⟩ else c.entry? k := by
  unfold put? at h
  obtain ⟨expiresAt, hexp, rfl⟩ := Option.map_eq_some_iff.1 h
  refine ⟨expiresAt, hexp, ?_⟩
  have hrest := entry?_remove c key k
  unfold entry? at hrest ⊢
  rw [lookup_cons_eq, hrest]
  by_cases hk : k = key <;> simp [hk]

/-- What is put for a time ends when the time is over, which the clock can show. -/
theorem entry?_put_ttl {c c' : Cache K V} {now ttl : Ticks} {key : K} {value : V}
    (h : c.put? now key value (some ttl) = some c') :
    now + ttl < clockEnd ∧ c'.entry? key = some ⟨value, some (now + ttl)⟩ := by
  obtain ⟨expiresAt, hexpiry, hentry⟩ := entry?_put h key
  simp only [expiry?, Option.ite_none_right_eq_some, Option.some.injEq] at hexpiry
  obtain ⟨hshown, rfl⟩ := hexpiry
  exact ⟨hshown, by rw [hentry, if_pos rfl]⟩

theorem put?_ttl_eq_none {c : Cache K V} {now ttl : Ticks} {key : K} {value : V}
    (h : c.put? now key value (some ttl) = none) : clockEnd ≤ now + ttl := by
  by_contra hshown
  simp [put?, expiry?, not_le.1 hshown] at h

/-! ## What is kept -/

/-- Whatever the cache keeps under a key is what the table says of it. -/
def Holds (c : Cache K V) (table : K → V) : Prop := ∀ k e, c.entry? k = some e → e.value = table k

variable {c : Cache K V} {table : K → V}

theorem holds_empty (table : K → V) : (empty : Cache K V).Holds table := by
  intro k e h
  simp at h

theorem Holds.get (h : c.Holds table) (now : Ticks) (key : K) : (c.get now key).2.Holds table := by
  intro k e he
  rw [entry?_get] at he
  split at he
  · rename_i hk
    subst hk
    exact h k e (live?_eq_some he)
  · exact h k e he

/-- What is found is what the table says. -/
theorem Holds.get_eq (h : c.Holds table) (now : Ticks) (key : K) (v : V) (hv : (c.get now key).1 = some v) :
    v = table key := by
  rw [get_fst] at hv
  obtain ⟨e, he, rfl⟩ := Option.map_eq_some_iff.1 hv
  exact h key e (live?_eq_some he)

theorem Holds.put (h : c.Holds table) {c' : Cache K V} {now : Ticks} {key : K} {ttl : Option Ticks}
    (hput : c.put? now key (table key) ttl = some c') : c'.Holds table := by
  intro k e he
  obtain ⟨expiresAt, -, hk⟩ := entry?_put hput k
  rw [hk] at he
  split at he
  · rename_i hkey
    subst hkey
    cases he
    rfl
  · exact h k e he

/-- Without a key, what is kept may be another table at that key. -/
theorem Holds.remove (h : c.Holds table) {key : K} {table' : K → V}
    (hother : ∀ k, k ≠ key → table' k = table k) :
    (c.remove key).Holds table' := by
  intro k e he
  rw [entry?_remove] at he
  split at he
  · cases he
  · rename_i hk
    rw [hother k hk]
    exact h k e he

end Cache

end Tariff
