import Mathlib
import Tariff.Proofs.Cache.Found
/-
  Tariff.Proofs.Cache.History — what a look-up finds, told by what was done before.

  Handles are made and cloned, operations are done through them, and the clock goes forward
  (`CacheRun`). What happened says by itself which handles share their entries (`Sharing`: those
  that clones lead back to one another) and what was put last under a key (`LastPut`: nothing done
  later through the handles that count wrote that key).

  - `CacheRun.found_iff`: a cache has for a key what was put last through its handles, until it
    expires.
  - `CacheRun.look_up`: so a look-up through a handle finds what was put last through the handles
    that share its entries, and nothing else that was done matters.
-/

namespace Tariff

variable {K V : Type} [DecidableEq K]

/-! ## What happened -/

/-- What can happen to the handles of a bank. -/
inductive CacheEvent (K V : Type) where
  | opened
  | cloned (handle : Nat)
  | did (handle : Nat) (now : Ticks) (op : CacheOp K V)

namespace CacheEvent

/-- The event makes the next handle. -/
def makesHandle : CacheEvent K V → Bool
  | .did _ _ _ => false
  | _ => true

/-- The event writes the key through one of the handles. -/
def Writes (via : Nat → Prop) (key : K) : CacheEvent K V → Prop
  | .did handle _ op => via handle ∧ op.writes key = true
  | _ => False

/-- All that a look-up of the key can depend on: what makes handles, and what writes the key. -/
def bearsOn (key : K) : CacheEvent K V → Bool
  | .did _ _ op => op.writes key
  | _ => true

end CacheEvent

/-- How many handles there are after the events. -/
def handlesMade (es : List (CacheEvent K V)) : Nat := es.countP (·.makesHandle)

omit [DecidableEq K] in
theorem handlesMade_concat (es : List (CacheEvent K V)) (e : CacheEvent K V) :
    handlesMade (es ++ [e]) = handlesMade es + if e.makesHandle then 1 else 0 := by
  rw [handlesMade, handlesMade, List.countP_append, List.countP_singleton]

/-- The handles share their entries: a handle does with the one it was cloned from, and so on. -/
inductive Sharing (es : List (CacheEvent K V)) : Nat → Nat → Prop
  | refl (handle : Nat) : Sharing es handle handle
  | cloned {before after : List (CacheEvent K V)} {handle : Nat} (h : es = before ++ .cloned handle :: after) :
      Sharing es (handlesMade before) handle
  | symm {x y : Nat} : Sharing es x y → Sharing es y x
  | trans {x y z : Nat} : Sharing es x y → Sharing es y z → Sharing es x z

/-- The value was put last under the key, of all that was done through the handles that count: nothing
was put there later, and it was not taken away. -/
def LastPut (via : Nat → Prop) (es : List (CacheEvent K V)) (key : K) (v : V) (since : Ticks)
    (ttl : Option Ticks) : Prop :=
  ∃ before handle after, es = before ++ .did handle since (.put key v ttl) :: after ∧ via handle ∧
    ∀ e ∈ after, ¬ e.Writes via key

variable {via via' : Nat → Prop} {es : List (CacheEvent K V)} {e : CacheEvent K V} {key : K} {v : V}
  {since : Ticks} {ttl : Option Ticks}

omit [DecidableEq K] in
/-- What shares still does after another event. -/
theorem Sharing.concat {x y : Nat} (h : Sharing es x y) (e : CacheEvent K V) : Sharing (es ++ [e]) x y := by
  induction h with
  | refl x => exact .refl x
  | @cloned before after handle h =>
    have hconcat : es ++ [e] = before ++ .cloned handle :: (after ++ [e]) := by simp [h]
    exact .cloned hconcat
  | symm _ ih => exact ih.symm
  | trans _ _ ih ih' => exact ih.trans ih'

theorem LastPut.concat (h : LastPut via es key v since ttl) (he : ¬ e.Writes via key) :
    LastPut via (es ++ [e]) key v since ttl := by
  obtain ⟨before, handle, after, rfl, hvia, hafter⟩ := h
  refine ⟨before, handle, after ++ [e], by simp, hvia, ?_⟩
  intro e' he'
  rcases List.mem_append.1 he' with he' | he'
  · exact hafter e' he'
  · rw [List.mem_singleton.1 he']
    exact he

theorem lastPut_concat_iff :
    LastPut via (es ++ [e]) key v since ttl ↔
      (∃ handle, e = .did handle since (.put key v ttl) ∧ via handle) ∨
        (¬ e.Writes via key ∧ LastPut via es key v since ttl) := by
  constructor
  · rintro ⟨before, handle, after, hes, hvia, hafter⟩
    rcases eq_append_of_concat_eq hes with ⟨-, rfl, -⟩ | ⟨after', rfl, rfl⟩
    · exact .inl ⟨handle, rfl, hvia⟩
    · refine .inr ⟨hafter e (by simp), before, handle, after', rfl, hvia, ?_⟩
      intro e' he'
      exact hafter e' (List.mem_append_left _ he')
  · rintro (⟨handle, rfl, hvia⟩ | ⟨he, h⟩)
    · exact ⟨es, handle, [], rfl, hvia, by simp⟩
    · exact h.concat he

/-- No two values were put last. -/
theorem LastPut.unique {v' : V} {since' : Ticks} {ttl' : Option Ticks} (h : LastPut via es key v since ttl)
    (h' : LastPut via es key v' since' ttl') : v = v' ∧ since = since' ∧ ttl = ttl' := by
  induction es using List.reverseRecOn with
  | nil =>
    obtain ⟨before, handle, after, hes, -⟩ := h
    simp at hes
  | append_singleton es e ih =>
    rcases lastPut_concat_iff.1 h with ⟨handle, rfl, hvia⟩ | ⟨he, h⟩
    · rcases lastPut_concat_iff.1 h' with ⟨handle', heq, -⟩ | ⟨he', -⟩
      · cases heq
        exact ⟨rfl, rfl, rfl⟩
      · exact absurd ⟨hvia, by simp [CacheOp.writes]⟩ he'
    · rcases lastPut_concat_iff.1 h' with ⟨handle', rfl, hvia'⟩ | ⟨-, h'⟩
      · exact absurd ⟨hvia', by simp [CacheOp.writes]⟩ he
      · exact ih h h'

theorem lastPut_congr (h : ∀ handle now op, .did handle now op ∈ es → (via handle ↔ via' handle)) :
    LastPut via es key v since ttl ↔ LastPut via' es key v since ttl := by
  have of_imp : ∀ {p q : Nat → Prop}, (∀ handle now op, .did handle now op ∈ es → (p handle ↔ q handle)) →
      LastPut p es key v since ttl → LastPut q es key v since ttl := by
    rintro p q hpq ⟨before, handle, after, rfl, hvia, hafter⟩
    refine ⟨before, handle, after, rfl, (hpq handle since (.put key v ttl) (by simp)).1 hvia, ?_⟩
    intro e he hwrites
    cases e with
    | opened | cloned => exact hwrites
    | did x at_ op =>
      apply hafter _ he
      exact ⟨(hpq x at_ op (by simp [he])).2 hwrites.1, hwrites.2⟩
  exact ⟨of_imp h, of_imp fun handle now op hmem => (h handle now op hmem).symm⟩

/-! ## What matters for a key -/

theorem exists_of_filter_eq {α : Type} {p : α → Bool} {xs before after : List α} {x : α}
    (h : xs.filter p = before ++ x :: after) :
    ∃ before' after', xs = before' ++ x :: after' ∧ before'.filter p = before ∧ after'.filter p = after := by
  obtain ⟨before', rest, rfl, hbefore, hrest⟩ := List.filter_eq_append_iff.1 h
  obtain ⟨skipped, after', rfl, hskipped, -, hafter⟩ := List.filter_eq_cons_iff.1 hrest
  refine ⟨before' ++ skipped, after', by simp, ?_, hafter⟩
  rw [List.filter_append, hbefore, List.filter_eq_nil_iff.2 hskipped, List.append_nil]

theorem handlesMade_filter (es : List (CacheEvent K V)) (key : K) :
    handlesMade (es.filter (·.bearsOn key)) = handlesMade es := by
  unfold handlesMade
  rw [List.countP_filter]
  apply List.countP_congr
  intro e he
  cases e <;> simp [CacheEvent.makesHandle, CacheEvent.bearsOn]

theorem sharing_filter (key : K) {x y : Nat} : Sharing (es.filter (·.bearsOn key)) x y ↔ Sharing es x y := by
  constructor
  · intro h
    induction h with
    | refl x => exact .refl x
    | cloned h =>
      obtain ⟨before, after, hes, rfl, -⟩ := exists_of_filter_eq h
      rw [handlesMade_filter]
      exact .cloned hes
    | symm _ ih => exact ih.symm
    | trans _ _ ih ih' => exact ih.trans ih'
  · intro h
    induction h with
    | refl x => exact .refl x
    | @cloned before after handle h =>
      rw [← handlesMade_filter before key]
      have hkept : es.filter (·.bearsOn key) =
          before.filter (·.bearsOn key) ++ .cloned handle :: after.filter (·.bearsOn key) := by
        rw [h, List.filter_append, List.filter_cons_of_pos rfl]
      exact .cloned hkept
    | symm _ ih => exact ih.symm
    | trans _ _ ih ih' => exact ih.trans ih'

theorem lastPut_filter : LastPut via (es.filter (·.bearsOn key)) key v since ttl ↔ LastPut via es key v since ttl := by
  constructor
  · rintro ⟨before, handle, after, h, hvia, hafter⟩
    obtain ⟨before', after', hes, -, rfl⟩ := exists_of_filter_eq h
    refine ⟨before', handle, after', hes, hvia, ?_⟩
    intro e he hwrites
    refine hafter e (List.mem_filter.2 ⟨he, ?_⟩) hwrites
    cases e with
    | opened | cloned => rfl
    | did _ _ op => exact hwrites.2
  · rintro ⟨before, handle, after, rfl, hvia, hafter⟩
    refine ⟨before.filter (·.bearsOn key), handle, after.filter (·.bearsOn key), ?_, hvia, ?_⟩
    · rw [List.filter_append, List.filter_cons_of_pos (by simp [CacheEvent.bearsOn, CacheOp.writes])]
    · intro e he
      exact hafter e (List.mem_of_mem_filter he)

/-! ## Runs -/

/-- What can happen to a bank from the start on, and what it leaves. The clock never goes back, a handle that
is used was made before, and what is put ends at an instant that the clock can show. -/
inductive CacheRun : List (CacheEvent K V) → Ticks → CacheBank K V → Prop
  | start (now : Ticks) : CacheRun [] now .empty
  | elapse {es : List (CacheEvent K V)} {now later : Ticks} {b : CacheBank K V} : CacheRun es now b → now ≤ later →
      CacheRun es later b
  | opened {es : List (CacheEvent K V)} {now : Ticks} {b : CacheBank K V} : CacheRun es now b →
      CacheRun (es ++ [.opened]) now b.open_
  | cloned {es : List (CacheEvent K V)} {now : Ticks} {b : CacheBank K V} {handle : Nat} : CacheRun es now b →
      handle < b.handles.length → CacheRun (es ++ [.cloned handle]) now (b.clone handle)
  | did {es : List (CacheEvent K V)} {now : Ticks} {b : CacheBank K V} {handle : Nat} {op : CacheOp K V} :
      CacheRun es now b → handle < b.handles.length → op.Shown now →
      CacheRun (es ++ [.did handle now op]) now (b.apply handle now op).2

theorem getElem?_concat_eq_some_iff {α : Type} {xs : List α} {x y : α} {i : Nat} :
    (xs ++ [x])[i]? = some y ↔ xs[i]? = some y ∨ i = xs.length ∧ x = y := by
  rcases Nat.lt_trichotomy i xs.length with hi | rfl | hi
  · rw [List.getElem?_append_left hi]
    simp [Nat.ne_of_lt hi]
  · simp
  · rw [List.getElem?_eq_none (by simpa using hi), List.getElem?_eq_none (Nat.le_of_lt hi)]
    simp [Nat.ne_of_gt hi]

namespace CacheRun

variable {now later : Ticks} {b : CacheBank K V} {n : Nat}

theorem length_handles (h : CacheRun es now b) : b.handles.length = handlesMade es := by
  induction h with
  | start => rfl
  | elapse _ _ ih => exact ih
  | opened _ ih => rw [CacheBank.open_, List.length_append, ih, handlesMade_concat]; rfl
  | cloned _ hhandle ih =>
    rw [CacheBank.clone, List.getElem?_eq_getElem hhandle, List.length_append, ih, handlesMade_concat]
    rfl
  | did _ _ _ ih => rw [CacheBank.handles_apply, ih, handlesMade_concat]; rfl

theorem stands (h : CacheRun es now b) : b.Stands := by
  induction h with
  | start => intro n hn; cases hn
  | elapse _ _ ih => exact ih
  | opened _ ih =>
    intro n hn
    simp only [CacheBank.open_, List.length_append, List.length_singleton]
    rcases List.mem_append.1 hn with hn | hn
    · have := ih n hn
      omega
    · rw [List.mem_singleton.1 hn]
      omega
  | @cloned _ _ b handle _ _ ih =>
    intro n hn
    rcases List.mem_append.1 hn with hn | hn
    · exact ih n hn
    · exact ih n (List.mem_of_getElem? (Option.mem_toList.1 hn))
  | @did _ _ b handle op _ _ _ ih =>
    intro n hn
    rw [CacheBank.length_caches_apply]
    rw [CacheBank.handles_apply] at hn
    exact ih n hn

theorem lt_of_did (h : CacheRun es now b) {handle : Nat} {since : Ticks} {op : CacheOp K V}
    (hdid : .did handle since op ∈ es) : handle < b.handles.length := by
  induction h with
  | start => cases hdid
  | elapse _ _ ih => exact ih hdid
  | opened _ ih =>
    rcases List.mem_append.1 hdid with hdid | hdid
    · have := ih hdid
      simp only [CacheBank.open_, List.length_append]
      omega
    · simp at hdid
  | cloned _ _ ih =>
    rcases List.mem_append.1 hdid with hdid | hdid
    · have := ih hdid
      simp only [CacheBank.clone, List.length_append]
      omega
    · simp at hdid
  | did _ hhandle _ ih =>
    rw [CacheBank.handles_apply]
    rcases List.mem_append.1 hdid with hdid | hdid
    · exact ih hdid
    · cases List.mem_singleton.1 hdid
      exact hhandle

/-! ## Which handles share -/

theorem exists_cache (h : CacheRun es now b) {handle : Nat} (hhandle : handle < b.handles.length) :
    ∃ n, b.handles[handle]? = some n ∧ n < b.caches.length := by
  refine ⟨b.handles[handle], List.getElem?_eq_getElem hhandle, ?_⟩
  exact h.stands _ (List.getElem_mem hhandle)

/-- A clone stands for the cache of the handle that it was cloned from. -/
theorem cloned_same (h : CacheRun es now b) {before after : List (CacheEvent K V)} {handle : Nat}
    (hes : es = before ++ .cloned handle :: after) :
    ∃ n, b.handles[handlesMade before]? = some n ∧ b.handles[handle]? = some n := by
  have grows : ∀ {b : CacheBank K V} {k : Nat},
      (∃ n, b.handles[handlesMade before]? = some n ∧ b.handles[handle]? = some n) →
      ∃ n, (b.handles ++ [k])[handlesMade before]? = some n ∧ (b.handles ++ [k])[handle]? = some n := by
    rintro b k ⟨n, hnew, hold⟩
    exact ⟨n, getElem?_concat_eq_some_iff.2 (.inl hnew), getElem?_concat_eq_some_iff.2 (.inl hold)⟩
  induction h generalizing after with
  | start => simp at hes
  | elapse _ _ ih => exact ih hes
  | opened _ ih =>
    rcases eq_append_of_concat_eq hes with ⟨-, hclone, -⟩ | ⟨after', -, hes⟩
    · cases hclone
    · exact grows (ih hes)
  | cloned hrun hhandle ih =>
    obtain ⟨n, hn, -⟩ := hrun.exists_cache hhandle
    rw [CacheBank.clone, hn]
    rcases eq_append_of_concat_eq hes with ⟨rfl, hclone, -⟩ | ⟨after', -, hes⟩
    · cases hclone
      refine ⟨n, getElem?_concat_eq_some_iff.2 (.inr ⟨hrun.length_handles.symm, rfl⟩), ?_⟩
      exact getElem?_concat_eq_some_iff.2 (.inl hn)
    · exact grows (ih hes)
  | did _ _ _ ih =>
    rw [CacheBank.handles_apply]
    rcases eq_append_of_concat_eq hes with ⟨-, hclone, -⟩ | ⟨after', -, hes⟩
    · cases hclone
    · exact ih hes

theorem same_of_sharing (h : CacheRun es now b) {x y : Nat} (hxy : Sharing es x y) :
    b.handles[x]? = b.handles[y]? := by
  induction hxy with
  | refl => rfl
  | cloned hes =>
    obtain ⟨n, hnew, hold⟩ := h.cloned_same hes
    rw [hnew, hold]
  | symm _ ih => exact ih.symm
  | trans _ _ ih ih' => exact ih.trans ih'

theorem sharing_of_same (h : CacheRun es now b) {x y : Nat} (hx : b.handles[x]? = some n)
    (hy : b.handles[y]? = some n) : Sharing es x y := by
  induction h generalizing x y n with
  | start => simp [CacheBank.empty] at hx
  | elapse _ _ ih => exact ih hx hy
  | @opened es now b hrun ih =>
    -- the new cache has a number that no handle had
    have fresh : ∀ {z : Nat}, b.handles[z]? ≠ some b.caches.length := by
      intro z hz
      exact Nat.lt_irrefl _ (hrun.stands _ (List.mem_of_getElem? hz))
    rcases getElem?_concat_eq_some_iff.1 hx with hx | ⟨rfl, rfl⟩
    · rcases getElem?_concat_eq_some_iff.1 hy with hy | ⟨rfl, rfl⟩
      · exact (ih hx hy).concat _
      · exact absurd hx fresh
    · rcases getElem?_concat_eq_some_iff.1 hy with hy | ⟨rfl, -⟩
      · exact absurd hy fresh
      · exact .refl _
  | @cloned es now b handle hrun hhandle ih =>
    obtain ⟨k, hk, -⟩ := hrun.exists_cache hhandle
    have new : Sharing (es ++ [.cloned handle]) b.handles.length handle := by
      rw [hrun.length_handles]
      exact .cloned rfl
    rw [CacheBank.clone, hk] at hx hy
    rcases getElem?_concat_eq_some_iff.1 hx with hx | ⟨rfl, rfl⟩
    · rcases getElem?_concat_eq_some_iff.1 hy with hy | ⟨rfl, rfl⟩
      · exact (ih hx hy).concat _
      · exact ((ih hx hk).concat _).trans new.symm
    · rcases getElem?_concat_eq_some_iff.1 hy with hy | ⟨rfl, -⟩
      · exact new.trans ((ih hk hy).concat _)
      · exact .refl _
  | did _ _ _ ih =>
    rw [CacheBank.handles_apply] at hx hy
    exact (ih hx hy).concat _

/-! ## What is found -/

theorem lastPut_grown (h : CacheRun es now b) (he : ∀ via, ¬ e.Writes via key) (k : Nat) :
    LastPut (fun x => (b.handles ++ [k])[x]? = some n) (es ++ [e]) key v since ttl ↔
      LastPut (fun x => b.handles[x]? = some n) es key v since ttl := by
  rw [lastPut_concat_iff]
  have hput : ¬ ∃ handle, e = .did handle since (.put key v ttl) ∧ (b.handles ++ [k])[handle]? = some n := by
    rintro ⟨handle, rfl, -⟩
    exact he (fun _ => True) ⟨trivial, by simp [CacheOp.writes]⟩
  rw [or_iff_right hput, and_iff_right (he _)]
  apply lastPut_congr
  intro handle since op hdid
  rw [List.getElem?_append_left (h.lt_of_did hdid)]

/-- A cache has for a key what was put last through its handles, until that expires. -/
theorem found_iff (h : CacheRun es now b) (hlater : now ≤ later) (n : Nat) (key : K) (v : V) :
    b.found n later key = some v ↔
      ∃ since ttl, LastPut (fun x => b.handles[x]? = some n) es key v since ttl ∧ ∀ d ∈ ttl, later < since + d := by
  induction h with
  | start =>
    constructor
    · intro hfound
      cases hfound
    · rintro ⟨since, ttl, ⟨before, handle, after, hes, -⟩, -⟩
      simp at hes
  | elapse _ hnow ih => exact ih (Nat.le_trans hnow hlater)
  | opened hrun ih =>
    rw [CacheBank.found_open, ih hlater]
    have hopened : ∀ via, ¬ (CacheEvent.opened (K := K) (V := V)).Writes via key := fun _ h => h
    simp only [CacheBank.open_, hrun.lastPut_grown hopened]
  | @cloned _ _ b handle hrun hhandle ih =>
    obtain ⟨k, hk, -⟩ := hrun.exists_cache hhandle
    have hfound : (b.clone handle).found n later key = b.found n later key := rfl
    rw [hfound, ih hlater]
    have hcloned : ∀ via, ¬ (CacheEvent.cloned (K := K) (V := V) handle).Writes via key := fun _ h => h
    simp only [CacheBank.clone, hk, Option.toList_some, hrun.lastPut_grown hcloned]
  | @did es now b handle op hrun hhandle hshown ih =>
    obtain ⟨k, hk, hlt⟩ := hrun.exists_cache hhandle
    rw [CacheBank.found_apply hk hlt hlater hshown, CacheBank.handles_apply, ih hlater]
    simp only [lastPut_concat_iff]
    have hnumber : b.handles[handle]? = some n ↔ n = k := by
      rw [hk, Option.some.injEq, eq_comm]
    constructor
    · rintro (⟨rfl, ttl, rfl, hgood⟩ | ⟨hwrites, since, ttl, hlast, hgood⟩)
      · exact ⟨now, ttl, .inl ⟨handle, rfl, hk⟩, hgood⟩
      · exact ⟨since, ttl, .inr ⟨fun h => hwrites ⟨hnumber.1 h.1, h.2⟩, hlast⟩, hgood⟩
    · rintro ⟨since, ttl, ⟨x, hput, hx⟩ | ⟨hwrites, hlast⟩, hgood⟩
      · cases hput
        exact .inl ⟨hnumber.1 hx, ttl, rfl, hgood⟩
      · exact .inr ⟨fun h => hwrites ⟨hnumber.2 h.1, h.2⟩, since, ttl, hlast, hgood⟩

theorem sharing_iff (h : CacheRun es now b) {handle x : Nat} (hhandle : b.handles[handle]? = some n) :
    Sharing es handle x ↔ b.handles[x]? = some n := by
  constructor
  · intro hsharing
    rw [← h.same_of_sharing hsharing, hhandle]
  · intro hx
    exact h.sharing_of_same hhandle hx

theorem get_value_iff (h : CacheRun es now b) {handle : Nat} (hhandle : handle < b.handles.length) (key : K) (v : V) :
    (b.apply handle now (.get key)).1.value = some v ↔
      ∃ since ttl, LastPut (Sharing es handle) es key v since ttl ∧ ∀ d ∈ ttl, now < since + d := by
  obtain ⟨n, hn, -⟩ := h.exists_cache hhandle
  have hvia : Sharing es handle = fun x => b.handles[x]? = some n := funext fun x => propext (h.sharing_iff hn)
  rw [CacheBank.get_value hn, h.found_iff (Nat.le_refl now), hvia]

/-- Leaving out what does not bear on a key leaves something that can happen. -/
theorem thinned (h : CacheRun es now b) (key : K) : ∃ b', CacheRun (es.filter (·.bearsOn key)) now b' := by
  induction h with
  | start now => exact ⟨.empty, .start now⟩
  | elapse _ hnow ih =>
    obtain ⟨b', h'⟩ := ih
    exact ⟨b', h'.elapse hnow⟩
  | opened _ ih =>
    obtain ⟨b', h'⟩ := ih
    rw [List.filter_append]
    exact ⟨_, h'.opened⟩
  | cloned hrun hhandle ih =>
    obtain ⟨b', h'⟩ := ih
    rw [hrun.length_handles, ← handlesMade_filter _ key, ← h'.length_handles] at hhandle
    rw [List.filter_append]
    exact ⟨_, h'.cloned hhandle⟩
  | @did es now b handle op hrun hhandle hshown ih =>
    obtain ⟨b', h'⟩ := ih
    rw [hrun.length_handles, ← handlesMade_filter _ key, ← h'.length_handles] at hhandle
    have hbears : (CacheEvent.did handle now op).bearsOn key = op.writes key := rfl
    rw [List.filter_append, List.filter_singleton, hbears]
    cases hwrites : op.writes key with
    | true => exact ⟨_, h'.did hhandle hshown⟩
    | false => exact ⟨b', by rwa [cond_false, List.append_nil]⟩

/-- A look-up finds what was put last under its key through the handles that share the entries, until that
expires, and nothing once it has expired, whatever was there before. Look-ups and what is done to other keys
make no difference: whenever the same things happened that bear on the key, the same is found. -/
theorem look_up (h : CacheRun es now b) {handle : Nat} (hhandle : handle < b.handles.length) (key : K) :
    (∀ v, (b.apply handle now (.get key)).1.value = some v ↔
      ∃ since ttl, LastPut (Sharing es handle) es key v since ttl ∧ ∀ d ∈ ttl, now < since + d) ∧
    (∀ v since d, LastPut (Sharing es handle) es key v since (some d) → since + d ≤ now →
      (b.apply handle now (.get key)).1.value = none) ∧
    (∃ b', CacheRun (es.filter (·.bearsOn key)) now b') ∧
    ∀ es' b', CacheRun es' now b' → es'.filter (·.bearsOn key) = es.filter (·.bearsOn key) →
      (b'.apply handle now (.get key)).1.value = (b.apply handle now (.get key)).1.value := by
  refine ⟨h.get_value_iff hhandle key, ?_, h.thinned key, ?_⟩
  · intro v since d hlast hover
    rw [Option.eq_none_iff_forall_ne_some]
    intro w hw
    obtain ⟨since', ttl', hlast', hgood⟩ := (h.get_value_iff hhandle key w).1 hw
    obtain ⟨-, rfl, rfl⟩ := hlast.unique hlast'
    exact absurd (hgood d rfl) (Nat.not_lt.2 hover)
  · intro es' b' h' hsame
    have hhandle' : handle < b'.handles.length := by
      rwa [h'.length_handles, ← handlesMade_filter es' key, hsame, handlesMade_filter, ← h.length_handles]
    have hsharing : Sharing es' handle = Sharing es handle := by
      funext x
      rw [← sharing_filter key, hsame, sharing_filter]
    apply Option.ext
    intro v
    rw [h'.get_value_iff hhandle', h.get_value_iff hhandle, hsharing]
    have hlast : ∀ since ttl, LastPut (Sharing es handle) es' key v since ttl ↔
        LastPut (Sharing es handle) es key v since ttl := by
      intro since ttl
      rw [← lastPut_filter, hsame, lastPut_filter]
    simp only [hlast]

/-- Handles 0 and 2 share, handle 1 is apart. What was put for good is hidden by what was put for a time, and
does not come back when that time is over. -/
theorem look_up_hidden :
    let es : List (CacheEvent Nat Nat) := [.opened, .opened, .cloned 0, .did 2 0 (.put 7 10 none),
      .did 1 0 (.put 7 99 none), .did 0 5 (.put 7 20 (some 3)), .did 1 8 (.remove 6)]
    ∃ b, CacheRun es 8 b ∧ 2 < b.handles.length ∧ LastPut (Sharing es 2) es 7 20 5 (some 3) ∧
      (b.apply 2 8 (.get 7)).1.value = none ∧ (b.apply 1 8 (.get 7)).1.value = some 99 := by
  intro es
  have made : CacheRun (K := Nat) (V := Nat) _ 0 _ := (CacheRun.start 0).opened.opened.cloned (show 0 < 2 by decide)
  have first := made.did (show 2 < 3 by decide) (show (CacheOp.put 7 10 none).Shown 0 by decide)
  have apart := first.did (show 1 < 3 by decide) (show (CacheOp.put 7 99 none).Shown 0 by decide)
  have short := (apart.elapse (show 0 ≤ 5 by decide)).did (show 0 < 3 by decide)
    (show (CacheOp.put 7 20 (some 3)).Shown 5 by decide)
  have run := (short.elapse (show 5 ≤ 8 by decide)).did (show 1 < 3 by decide)
    (show (CacheOp.remove 6).Shown 8 by decide)
  have shared : Sharing es 2 0 := .cloned (show es = [.opened, .opened] ++ .cloned 0 :: _ from rfl)
  have hlast : LastPut (Sharing es 2) es 7 20 5 (some 3) := by
    refine ⟨es.take 5, 0, [.did 1 8 (.remove 6)], rfl, shared, ?_⟩
    intro e he hwrites
    cases List.mem_singleton.1 he
    exact absurd hwrites.2 (by decide)
  exact ⟨_, run, by decide, hlast, (run.look_up (by decide) 7).2.1 20 5 3 hlast (by decide), by decide⟩

end CacheRun

end Tariff
