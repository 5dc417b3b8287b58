import Mathlib
import Tariff.Cache.Bank
import Tariff.Proofs.Cache.Entries
/-
  Tariff.Proofs.Cache.Found — what an operation does to what look-ups find.

  What a look-up drops would not be found later either (`Cache.get_get_fst`), so a look-up changes
  nothing that can be seen. Of a bank, what is found in a cache under a key changes with the puts,
  removals and clearings through a handle of that cache alone (`CacheBank.found_apply`), and every
  handle goes on to stand for the cache that it stood for.
-/

namespace Tariff

variable {K V : Type} [DecidableEq K]

/-! ## One cache -/

namespace Cache

theorem get_fst_eq_some_iff {c : Cache K V} {now : Ticks} {key : K} {v : V} :
    (c.get now key).1 = some v ↔
      ∃ expiresAt, c.entry? key = some ⟨v, expiresAt⟩ ∧ ∀ t ∈ expiresAt, now < t := by
  rw [get_fst, Option.map_eq_some_iff]
  constructor
  · rintro ⟨⟨v, expiresAt⟩, hlive, rfl⟩
    refine ⟨expiresAt, live?_eq_some hlive, ?_⟩
    intro t ht
    obtain rfl : expiresAt = some t := ht
    simpa [CacheEntry.isExpired] using good_of_live hlive
  · rintro ⟨expiresAt, hentry, hgood⟩
    refine ⟨⟨v, expiresAt⟩, ?_, rfl⟩
    rw [live?, hentry, Option.filter_some]
    cases expiresAt with
    | none => rfl
    | some t => simpa [CacheEntry.isExpired] using hgood t rfl

/-- What a look-up drops would not be found later either. -/
theorem get_get_fst (c : Cache K V) {now later : Ticks} (h : now ≤ later) (key k : K) :
    ((c.get now key).2.get later k).1 = (c.get later k).1 := by
  apply Option.ext
  intro v
  rw [get_fst_eq_some_iff, get_fst_eq_some_iff, entry?_get]
  by_cases hk : k = key
  · subst hk
    rw [if_pos rfl]
    constructor
    · rintro ⟨expiresAt, hlive, hgood⟩
      exact ⟨expiresAt, live?_eq_some hlive, hgood⟩
    · rintro ⟨expiresAt, hentry, hgood⟩
      refine ⟨expiresAt, ?_, hgood⟩
      have hnow : (c.get now k).1 = some v :=
        get_fst_eq_some_iff.2 ⟨expiresAt, hentry, fun t ht => Nat.lt_of_le_of_lt h (hgood t ht)⟩
      rw [get_fst] at hnow
      obtain ⟨e, hlive, -⟩ := Option.map_eq_some_iff.1 hnow
      rw [hlive, ← live?_eq_some hlive, hentry]
  · rw [if_neg hk]

theorem get_remove_fst (c : Cache K V) (later : Ticks) (key k : K) :
    ((c.remove key).get later k).1 = if k = key then none else (c.get later k).1 := by
  apply Option.ext
  intro v
  rw [get_fst_eq_some_iff, entry?_remove]
  by_cases hk : k = key
  · simp [hk]
  · rw [if_neg hk, if_neg hk, get_fst_eq_some_iff]

theorem get_put_fst {c c' : Cache K V} {now : Ticks} {key : K} {value : V} {ttl : Option Ticks}
    (h : c.put? now key value ttl = some c') (later : Ticks) (k : K) (v : V) :
    (c'.get later k).1 = some v ↔
      if k = key then v = value ∧ ∀ d ∈ ttl, later < now + d else (c.get later k).1 = some v := by
  obtain ⟨expiresAt, hexpiry, hentry⟩ := entry?_put h k
  rw [get_fst_eq_some_iff, hentry]
  by_cases hk : k = key
  · rw [if_pos hk, if_pos hk]
    cases ttl with
    | none =>
      obtain rfl : expiresAt = none := by simpa [expiry?] using hexpiry.symm
      simp [eq_comm]
    | some d =>
      obtain rfl : expiresAt = some (now + d) := by
        simp only [expiry?, Option.ite_none_right_eq_some, Option.some.injEq] at hexpiry
        exact hexpiry.2.symm
      simp [eq_comm]
  · rw [if_neg hk, if_neg hk, get_fst_eq_some_iff]

end Cache

/-! ## Caches of a bank -/

namespace CacheOp

/-- The operation puts something under the key, or takes away what is there. -/
def writes (key : K) : CacheOp K V → Bool
  | .get _ => false
  | .put k _ _ => k = key
  | .remove k => k = key
  | .clear => true

/-- What is put now ends at an instant that the clock can show. -/
def Shown (now : Ticks) : CacheOp K V → Prop
  | .put _ _ (some ttl) => now + ttl < clockEnd
  | _ => True

instance (now : Ticks) (op : CacheOp K V) : Decidable (op.Shown now) :=
  match op with
  | .put _ _ (some ttl) => inferInstanceAs (Decidable (now + ttl < clockEnd))
  | .put _ _ none | .get _ | .remove _ | .clear => .isTrue trivial

theorem Shown.exists_put {now : Ticks} {key : K} {value : V} {ttl : Option Ticks}
    (h : (CacheOp.put key value ttl).Shown now) (c : Cache K V) : ∃ c', c.put? now key value ttl = some c' := by
  unfold Cache.put? Cache.expiry?
  cases ttl with
  | none => exact ⟨_, rfl⟩
  | some d =>
    have hend : now + d < clockEnd := h
    simp [hend]

end CacheOp

namespace CacheBank

/-- The value that a cache of the bank has for a key. -/
def found (b : CacheBank K V) (n : Nat) (now : Ticks) (key : K) : Option V :=
  ((b.caches[n]?.getD .empty).get now key).1

/-- Every handle stands for a cache of the bank. -/
def Stands (b : CacheBank K V) : Prop := ∀ n ∈ b.handles, n < b.caches.length

variable {b : CacheBank K V} {handle n : Nat}

theorem found_set (hn : n < b.caches.length) (c : Cache K V) (handles : List Nat) (m : Nat) (later : Ticks)
    (key : K) :
    found ⟨b.caches.set n c, handles⟩ m later key =
      if m = n then (c.get later key).1 else b.found m later key := by
  unfold found
  by_cases hm : m = n
  · subst hm
    rw [if_pos rfl, List.getElem?_set_self hn, Option.getD_some]
  · rw [if_neg hm, List.getElem?_set_ne (Ne.symm hm)]

theorem found_open (b : CacheBank K V) (m : Nat) (later : Ticks) (key : K) :
    b.open_.found m later key = b.found m later key := by
  unfold found open_
  rcases Nat.lt_trichotomy m b.caches.length with hm | rfl | hm
  · rw [List.getElem?_append_left hm]
  · rw [List.getElem?_append_right (Nat.le_refl _), Nat.sub_self, List.getElem?_eq_none (Nat.le_refl _)]
    rfl
  · rw [List.getElem?_eq_none (by simpa using hm), List.getElem?_eq_none (Nat.le_of_lt hm)]

theorem handles_apply (b : CacheBank K V) (handle : Nat) (now : Ticks) (op : CacheOp K V) :
    (b.apply handle now op).2.handles = b.handles := by
  unfold apply
  cases b.handles[handle]? with
  | none => rfl
  | some n =>
    cases op with
    | get | remove | clear => rfl
    | put key value ttl => simp only; split <;> rfl

theorem length_caches_apply (b : CacheBank K V) (handle : Nat) (now : Ticks) (op : CacheOp K V) :
    (b.apply handle now op).2.caches.length = b.caches.length := by
  unfold apply
  cases b.handles[handle]? with
  | none => rfl
  | some n =>
    cases op with
    | get | remove | clear => exact List.length_set
    | put key value ttl =>
      simp only
      split
      · exact List.length_set
      · rfl

theorem get_value (hhandle : b.handles[handle]? = some n) (now : Ticks) (key : K) :
    (b.apply handle now (.get key)).1.value = b.found n now key := by
  unfold apply found
  rw [hhandle]

/-- From now on a cache has for a key what the operation put there through a handle of it; or what it had,
if the operation did not write it. -/
theorem found_apply (hhandle : b.handles[handle]? = some n) (hn : n < b.caches.length) {now later : Ticks}
    (hlater : now ≤ later) {op : CacheOp K V} (hshown : op.Shown now) (m : Nat) (key : K) (v : V) :
    (b.apply handle now op).2.found m later key = some v ↔
      (m = n ∧ ∃ ttl, op = .put key v ttl ∧ ∀ d ∈ ttl, later < now + d) ∨
        (¬(m = n ∧ op.writes key = true) ∧ b.found m later key = some v) := by
  have hcache : ((b.caches[n]?.getD .empty).get later key).1 = b.found n later key := rfl
  unfold apply
  rw [hhandle]
  cases op with
  | get k =>
    simp only [found_set hn, Cache.get_get_fst _ hlater, hcache]
    by_cases hm : m = n
    · simp [hm, CacheOp.writes]
    · simp [hm]
  | put k value ttl =>
    obtain ⟨c', hput⟩ := hshown.exists_put (b.caches[n]?.getD .empty)
    simp only [hput, found_set hn]
    by_cases hm : m = n
    · subst hm
      rw [if_pos rfl, Cache.get_put_fst hput, hcache]
      by_cases hk : key = k
      · subst hk
        simp [CacheOp.writes, eq_comm]
      · simp [hk, Ne.symm hk, CacheOp.writes]
    · simp [hm]
  | remove k =>
    simp only [found_set hn, Cache.get_remove_fst, hcache]
    by_cases hm : m = n
    · subst hm
      by_cases hk : key = k
      · simp [hk, CacheOp.writes]
      · simp [hk, Ne.symm hk, CacheOp.writes]
    · simp [hm]
  | clear =>
    simp only [found_set hn]
    by_cases hm : m = n
    · simp [hm, CacheOp.writes, Cache.clear, Cache.get]
    · simp [hm]

end CacheBank

end Tariff
