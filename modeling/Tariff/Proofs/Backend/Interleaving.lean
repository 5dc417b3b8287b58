import Mathlib
import Tariff.Proofs.Backend.Store
import Tariff.Proofs.Backend.Visits
/-
  Tariff.Proofs.Backend.Interleaving — calls that share a shelf and take turns.

  A reading takes up to three turns: it looks the price up, asks the backend if nothing good is
  kept, and keeps the answer. An append takes two: the backend appends, and the history of the
  price is taken from the shelf. Nothing holds the shelf from one turn of a call to its next, so
  turns of other calls can come between.

  - `history_alone`, `append_alone`: turns that follow one another are a call to the shelved backend.
  - `later_reading_has_version`: a reading that begins when an append has ended has the version, or
    repeats what a call had asked for before the append and kept after it. Where it fails, it does so
    in one of its own turns (`FailsIn`).
  - `late_keeping_hides_version`: the latter happens.
-/

namespace Tariff

open Stateful (exec)

/-! ## Turns -/

/-- How far a call has come. -/
inductive Stage where
  | idle
  /-- Nothing good was found for the price. -/
  | missed (priceId : String)
  /-- The backend gave this history. -/
  | told (priceId : String) (h : History)
  /-- The reading has ended. -/
  | listed (priceId : String) (result : Except Stop History)
  /-- The backend appended this version. -/
  | appended (priceId : String) (v : Version)
  /-- The append has ended. -/
  | ended (priceId : String) (result : Except Stop Version)

/-- The call has ended. -/
def Stage.Final : Stage → Prop
  | .listed _ _ | .ended _ _ => True
  | _ => False

/-- What a call does in one turn. -/
inductive Turn where
  | lookUp (call : Nat) (priceId : String)
  | ask (call : Nat)
  | keep (call : Nat)
  | append (call : Nat) (priceId : String) (new : NewVersion)
  | remove (call : Nat)
  /-- Nobody's turn: time passes, and the backend may get more versions. -/
  | pass

/-- The histories on the shelf, what the backend and the clock keep, and how far every call has come. -/
structure Scene (σ : Type) where
  cache : Cache String History
  state : σ
  stages : Nat → Stage

variable {m : Type → Type} [Monad m] {σ : Type} [Stateful m σ]

/-- What one turn does; `rows` tells which versions a price has. -/
inductive Step (b : Backend m) (clock : m Ticks) (config : CacheConfig) (rows : σ → String → History) :
    Turn → Scene σ → Scene σ → Prop
  | hit {x : Scene σ} {c : Nat} {p : String} {h : History} {cache : Cache String History} {s : σ} :
      x.stages c = .idle → (Shelf.lookUp clock p).exec (x.cache, x.state) = (.ok (some h), cache, s) →
      Step b clock config rows (.lookUp c p) x ⟨cache, s, Function.update x.stages c (.listed p (.ok h))⟩
  | miss {x : Scene σ} {c : Nat} {p : String} {cache : Cache String History} {s : σ} :
      x.stages c = .idle → (Shelf.lookUp clock p).exec (x.cache, x.state) = (.ok none, cache, s) →
      Step b clock config rows (.lookUp c p) x ⟨cache, s, Function.update x.stages c (.missed p)⟩
  | told {x : Scene σ} {c : Nat} {p : String} {h : History} {s : σ} :
      x.stages c = .missed p → (b.history p).exec x.state = (.ok h, s) →
      Step b clock config rows (.ask c) x ⟨x.cache, s, Function.update x.stages c (.told p h)⟩
  | failed {x : Scene σ} {c : Nat} {p : String} {why : Stop} {s : σ} :
      x.stages c = .missed p → (b.history p).exec x.state = (.error why, s) →
      Step b clock config rows (.ask c) x ⟨x.cache, s, Function.update x.stages c (.listed p (.error why))⟩
  | kept {x : Scene σ} {c : Nat} {p : String} {h : History} {cache : Cache String History} {s : σ} :
      x.stages c = .told p h →
      (Shelf.keep clock config.amountsTicks p h).exec (x.cache, x.state) = (.ok (), cache, s) →
      Step b clock config rows (.keep c) x ⟨cache, s, Function.update x.stages c (.listed p (.ok h))⟩
  | unkept {x : Scene σ} {c : Nat} {p : String} {h : History} {why : Stop} {cache : Cache String History} {s : σ} :
      x.stages c = .told p h →
      (Shelf.keep clock config.amountsTicks p h).exec (x.cache, x.state) = (.error why, cache, s) →
      Step b clock config rows (.keep c) x ⟨cache, s, Function.update x.stages c (.listed p (.error why))⟩
  | appended {x : Scene σ} {c : Nat} {p : String} {new : NewVersion} {v : Version} {s : σ} :
      x.stages c = .idle → (b.append p new).exec x.state = (.ok v, s) →
      Step b clock config rows (.append c p new) x ⟨x.cache, s, Function.update x.stages c (.appended p v)⟩
  | refused {x : Scene σ} {c : Nat} {p : String} {new : NewVersion} {why : Stop} {s : σ} :
      x.stages c = .idle → (b.append p new).exec x.state = (.error why, s) →
      Step b clock config rows (.append c p new) x ⟨x.cache, s, Function.update x.stages c (.ended p (.error why))⟩
  | removed {x : Scene σ} {c : Nat} {p : String} {v : Version} : x.stages c = .appended p v →
      Step b clock config rows (.remove c) x
        ⟨x.cache.remove p, x.state, Function.update x.stages c (.ended p (.ok v))⟩
  | passed {x : Scene σ} (s : σ) : (∀ q, rows x.state q ⊆ rows s q) →
      Step b clock config rows .pass x { x with state := s }

/-- Turns one after another, of any calls. -/
inductive Steps (b : Backend m) (clock : m Ticks) (config : CacheConfig) (rows : σ → String → History) :
    List Turn → Scene σ → Scene σ → Prop
  | rest (x : Scene σ) : Steps b clock config rows [] x x
  | turn {t : Turn} {ts : List Turn} {x y z : Scene σ} : Step b clock config rows t x y →
      Steps b clock config rows ts y z → Steps b clock config rows (t :: ts) x z

/-- The versions of a backend only become more. What a reading gives has all of them, and what an append
gives is one of them. -/
structure Gathers (b : Backend m) (clock : m Ticks) (rows : σ → String → History) : Prop where
  look (s : σ) (q : String) : rows s q ⊆ rows (exec clock s).2 q
  history {s t : σ} {p : String} {r : Except Stop History} : (b.history p).exec s = (r, t) →
    (∀ q, rows s q ⊆ rows t q) ∧ ∀ h, r = .ok h → rows s p ⊆ h
  append {s t : σ} {p : String} {new : NewVersion} {r : Except Stop Version} :
    (b.append p new).exec s = (r, t) → (∀ q, rows s q ⊆ rows t q) ∧ ∀ v, r = .ok v → v ∈ rows t p

/-- When the stage of one call changes, any call is at the new stage or where it was. -/
theorem Stage.update_cases {stages : Nat → Stage} {c k : Nat} {stage stage' : Stage}
    (h : Function.update stages c stage k = stage') : (k = c ∧ stage = stage') ∨ stages k = stage' := by
  rw [Function.update_apply] at h
  split at h
  · rename_i hkc
    exact .inl ⟨hkc, h⟩
  · exact .inr h

/-- A call at another stage than the one whose stage changes stays there. -/
theorem Stage.update_other {stages : Nat → Stage} {c k : Nat} {stage stage' : Stage} (hk : stages k = stage')
    (hc : stages c ≠ stage') : Function.update stages c stage k = stage' := by
  have hne : k ≠ c := by
    rintro rfl
    exact hc hk
  rw [Function.update_of_ne hne, hk]

variable {b : Backend m} {clock : m Ticks} {config : CacheConfig} {rows : σ → String → History}

namespace Step

variable {t : Turn} {x y : Scene σ}

/-- A call that has ended stays as it is. -/
theorem final (h : Step b clock config rows t x y) {k : Nat} {stage : Stage} (hk : x.stages k = stage)
    (hf : stage.Final) : y.stages k = stage := by
  cases h with
  | hit hc | miss hc | told hc | failed hc | kept hc | unkept hc | appended hc | refused hc | removed hc =>
    refine Stage.update_other hk fun heq => ?_
    rw [← heq, hc] at hf
    exact hf
  | passed => exact hk

/-- What a call was told has all that the price had when it asked. -/
theorem told_cases (h : Step b clock config rows t x y) (hb : Gathers b clock rows) {k : Nat} {p : String}
    {l : History} (hk : y.stages k = .told p l) : x.stages k = .told p l ∨ (t = .ask k ∧ rows x.state p ⊆ l) := by
  cases h with
  | hit | miss | failed | kept | unkept | appended | refused | removed =>
    obtain ⟨-, heq⟩ | hold := Stage.update_cases hk
    · cases heq
    · exact .inl hold
  | told hc hx =>
    obtain ⟨rfl, heq⟩ | hold := Stage.update_cases hk
    · cases heq
      exact .inr ⟨rfl, (hb.history hx).2 l rfl⟩
    · exact .inl hold
  | passed => exact .inl hk

/-- What is on the shelf was there, or is what a call was told and keeps. -/
theorem entry?_cases (h : Step b clock config rows t x y) {p : String} {e : CacheEntry History}
    (he : y.cache.entry? p = some e) : x.cache.entry? p = some e ∨
      ∃ k, t = .keep k ∧ x.stages k = .told p e.value ∧ y.stages k = .listed p (.ok e.value) := by
  cases h with
  | hit hc hx | miss hc hx =>
    simp only [Shelf.exec_lookUp, Prod.mk.injEq] at hx
    obtain ⟨-, rfl, rfl⟩ := hx
    rw [Cache.entry?_get] at he
    split at he
    · rename_i hp
      exact .inl (hp ▸ Cache.live?_eq_some he)
    · exact .inl he
  | told | failed | appended | refused | passed => exact .inl he
  | @kept _ c p' h cache s hc hx =>
    rw [Shelf.exec_keep] at hx
    cases hput : x.cache.put? (exec clock x.state).1 p' h (some config.amountsTicks) with
    | none => simp [hput] at hx
    | some cache' =>
      simp only [hput] at hx
      cases hx
      obtain ⟨expiresAt, -, hentry⟩ := Cache.entry?_put hput p
      rw [hentry] at he
      split at he
      · rename_i hp
        cases he
        exact .inr ⟨c, rfl, by rw [hc, hp], by simp [hp]⟩
      · exact .inl he
  | @unkept _ c p' h why cache s hc hx =>
    rw [Shelf.exec_keep] at hx
    cases hput : x.cache.put? (exec clock x.state).1 p' h (some config.amountsTicks) with
    | none =>
      simp only [hput] at hx
      cases hx
      exact .inl he
    | some cache' => simp [hput] at hx
  | removed hc =>
    rw [Cache.entry?_remove] at he
    split at he
    · cases he
    · exact .inl he

/-- The versions of a price only become more. -/
theorem grows (h : Step b clock config rows t x y) (hb : Gathers b clock rows) (q : String) :
    rows x.state q ⊆ rows y.state q := by
  cases h with
  | hit _ hx | miss _ hx =>
    simp only [Shelf.exec_lookUp, Prod.mk.injEq] at hx
    obtain ⟨-, rfl, rfl⟩ := hx
    exact hb.look x.state q
  | told _ hx | failed _ hx => exact (hb.history hx).1 q
  | @kept _ c p h cache s _ hx | @unkept _ c p h _ cache s _ hx =>
    have hs := Shelf.exec_keep_snd clock config.amountsTicks p h x.cache x.state
    rw [hx] at hs
    obtain rfl : s = _ := hs
    exact hb.look x.state q
  | appended _ hx | refused _ hx => exact (hb.append hx).1 q
  | removed => exact List.Subset.refl _
  | passed s hs => exact hs q

end Step

/-! ## Runs -/

namespace Steps

variable {ts us : List Turn} {x y z : Scene σ}

/-- What a turn keeps of the turns that were taken and of the scene, a run keeps. -/
theorem keeps {I : List Turn → Scene σ → Prop}
    (hturn : ∀ done t x y, I done x → Step b clock config rows t x y → I (done ++ [t]) y)
    (h : Steps b clock config rows ts x y) : ∀ done, I done x → I (done ++ ts) y := by
  induction h with
  | rest x => simp
  | @turn t ts x y z hstep _ ih =>
    intro done hx
    have hz := ih (done ++ [t]) (hturn done t x y hx hstep)
    rwa [List.append_assoc, List.singleton_append] at hz

theorem of_append (h : Steps b clock config rows (ts ++ us) x z) :
    ∃ y, Steps b clock config rows ts x y ∧ Steps b clock config rows us y z := by
  induction ts generalizing x with
  | nil => exact ⟨x, .rest x, h⟩
  | cons t ts ih =>
    cases h with
    | turn hstep hrest =>
      obtain ⟨y, hts, hus⟩ := ih hrest
      exact ⟨y, .turn hstep hts, hus⟩

theorem append (h : Steps b clock config rows ts x y) (h' : Steps b clock config rows us y z) :
    Steps b clock config rows (ts ++ us) x z := by
  induction h with
  | rest x => exact h'
  | turn hstep _ ih => exact .turn hstep (ih h')

theorem final (h : Steps b clock config rows ts x y) {k : Nat} {stage : Stage} (hk : x.stages k = stage)
    (hf : stage.Final) : y.stages k = stage :=
  h.keeps (I := fun _ x => x.stages k = stage) (fun _ _ _ _ hx hstep => hstep.final hx hf) [] hk

end Steps

/-! ## Turns that follow one another -/

/-- The turns of one reading, with none between them, are a reading through the shelf. -/
theorem history_alone (b : Backend m) (clock : m Ticks) (config : CacheConfig) (rows : σ → String → History)
    (x : Scene σ) {c : Nat} (hidle : x.stages c = .idle) (p : String) (currencies : Cache String (List Currency)) :
    let r := ((b.shelved clock config).history p).exec (⟨currencies, x.cache⟩, x.state)
    ∃ n y, Steps b clock config rows ([.lookUp c p, .ask c, .keep c].take n) x y ∧ y.stages c = .listed p r.1 ∧
      r.2 = (⟨currencies, y.cache⟩, y.state) := by
  have hreading := Shelf.readThrough_reading clock config.amountsTicks p (b.history p) x.cache x.state
  simp only [Backend.shelved, Shelf.exec_onHistories]
  generalize (Shelf.readThrough clock config.amountsTicks p (b.history p)).exec (x.cache, x.state) = r at hreading ⊢
  obtain ⟨result, cache, s⟩ := r
  -- A price that was missed is asked for.
  have miss {now : Ticks} {t : σ} (look : exec clock x.state = (now, t)) (hmiss : x.cache.live? now p = none) :
      Step b clock config rows (.lookUp c p) x
        ⟨(x.cache.get now p).2, t, Function.update x.stages c (.missed p)⟩ :=
    .miss hidle (by rw [Shelf.exec_lookUp, look, Cache.get_fst, hmiss]; rfl)
  cases hreading with
  | found look live =>
    exact ⟨1, _, .turn (.hit hidle (by rw [Shelf.exec_lookUp, look, Cache.get_fst, live]; rfl)) (.rest _),
      by simp, rfl⟩
  | failed look hmiss asked =>
    exact ⟨2, _, .turn (miss look hmiss) (.turn (.failed (p := p) (by simp) asked) (.rest _)), by simp, rfl⟩
  | @kept _ _ _ _ _ v _ look hmiss asked look' put =>
    exact ⟨3, _, .turn (miss look hmiss) (.turn (.told (p := p) (by simp) asked)
      (.turn (.kept (p := p) (h := v) (by simp) (by rw [Shelf.exec_keep, look']; simp [put])) (.rest _))),
      by simp, rfl⟩
  | @unkept _ _ _ _ _ v look hmiss asked look' put =>
    exact ⟨3, _, .turn (miss look hmiss) (.turn (.told (p := p) (by simp) asked)
      (.turn (.unkept (p := p) (h := v) (by simp) (by rw [Shelf.exec_keep, look']; simp [put]; rfl)) (.rest _))),
      by simp, rfl⟩

/-- The turns of one append, with none between them, are an append through the shelf. -/
theorem append_alone (b : Backend m) (clock : m Ticks) (config : CacheConfig) (rows : σ → String → History)
    (x : Scene σ) {c : Nat} (hidle : x.stages c = .idle) (p : String) (new : NewVersion)
    (currencies : Cache String (List Currency)) :
    let r := ((b.shelved clock config).append p new).exec (⟨currencies, x.cache⟩, x.state)
    ∃ n y, Steps b clock config rows ([.append c p new, .remove c].take n) x y ∧ y.stages c = .ended p r.1 ∧
      r.2 = (⟨currencies, y.cache⟩, y.state) := by
  simp only [Shelf.exec_append_shelved]
  rcases hx : (b.append p new).exec x.state with ⟨why | v, s⟩
  · exact ⟨1, _, .turn (.refused hidle hx) (.rest _), by simp, rfl⟩
  · exact ⟨2, _, .turn (.appended hidle hx) (.turn (.removed (p := p) (v := v) (by simp)) (.rest _)), by simp, rfl⟩

/-! ## An append, and a reading that begins when it has ended -/

/-- The price has the version, and a call that was told of the price without it had asked early. -/
structure Present (rows : σ → String → History) (early : List Turn) (p : String) (v : Version) (x : Scene σ) :
    Prop where
  there : v ∈ rows x.state p
  told : ∀ k h, x.stages k = .told p h → v ∈ h ∨ .ask k ∈ early

/-- Moreover what is kept of the price without the version was kept by a call that had asked early. -/
structure Cleared (rows : σ → String → History) (early done : List Turn) (p : String) (v : Version) (x : Scene σ) :
    Prop extends Present rows early p v x where
  kept : ∀ e, x.cache.entry? p = some e →
    v ∈ e.value ∨ ∃ k, .ask k ∈ early ∧ .keep k ∈ done ∧ x.stages k = .listed p (.ok e.value)

/-- A reading that looked the price up in vain: whatever it is told, it is told the version. -/
def Stage.Sees (p : String) (v : Version) : Stage → Prop
  | .missed q => q = p
  | .told q h => q = p ∧ v ∈ h
  | .listed _ (.ok h) => v ∈ h
  | .listed _ (.error _) => True
  | _ => False

section

variable {t : Turn} {x y : Scene σ} {early done : List Turn} {p : String} {v : Version}

theorem Present.step (hx : Present rows early p v x) (hb : Gathers b clock rows)
    (h : Step b clock config rows t x y) : Present rows early p v y where
  there := h.grows hb p hx.there
  told k l hk := by
    rcases h.told_cases hb hk with hold | ⟨-, hsub⟩
    · exact hx.told k l hold
    · exact .inl (hsub hx.there)

theorem Cleared.step (hx : Cleared rows early done p v x) (hb : Gathers b clock rows)
    (h : Step b clock config rows t x y) : Cleared rows early (done ++ [t]) p v y where
  toPresent := hx.toPresent.step hb h
  kept e he := by
    rcases h.entry?_cases he with hold | ⟨k, rfl, htold, hlisted⟩
    · refine (hx.kept e hold).imp_right fun hk => ?_
      obtain ⟨k, hask, hkeep, hlisted⟩ := hk
      exact ⟨k, hask, List.mem_append_left _ hkeep, h.final hlisted trivial⟩
    · refine (hx.told k e.value htold).imp_right fun hask => ?_
      exact ⟨k, hask, List.mem_append_right _ (List.mem_singleton_self _), hlisted⟩

theorem Step.sees (h : Step b clock config rows t x y) (hb : Gathers b clock rows) (hv : v ∈ rows x.state p)
    {l : Nat} (hl : (x.stages l).Sees p v) : (y.stages l).Sees p v := by
  have other {c : Nat} {stage : Stage} (hc : l = c → stage.Sees p v) :
      (Function.update x.stages c stage l).Sees p v := by
    rw [Function.update_apply]
    split
    · rename_i hlc
      exact hc hlc
    · exact hl
  cases h with
  | hit hc | miss hc | appended hc | refused hc | removed hc =>
    refine other fun hlc => ?_
    rw [hlc, hc] at hl
    exact hl.elim
  | told hc hx =>
    refine other fun hlc => ?_
    rw [hlc, hc] at hl
    obtain rfl := hl
    exact ⟨rfl, (hb.history hx).2 _ rfl hv⟩
  | kept hc hx =>
    refine other fun hlc => ?_
    rw [hlc, hc] at hl
    exact hl.2
  | failed | unkept => exact other fun _ => trivial
  | passed => exact hl

end

/-- In this turn, taken from this scene, this call fails for this reason to read the price: what it asks of the
backend fails, or the clock cannot show the end of what it would keep. -/
inductive FailsIn (b : Backend m) (clock : m Ticks) (config : CacheConfig) (l : Nat) (p : String) (why : Stop) :
    Turn → Scene σ → Prop
  | asked {x : Scene σ} {s : σ} : x.stages l = .missed p → (b.history p).exec x.state = (.error why, s) →
      FailsIn b clock config l p why (.ask l) x
  | unkept {x : Scene σ} {h : History} : x.stages l = .told p h → why = .halt →
      clockEnd ≤ (exec clock x.state).1 + config.amountsTicks → FailsIn b clock config l p why (.keep l) x

/-- A reading that has failed had done so before, or fails in this turn. -/
theorem Step.failure_cases {t : Turn} {x y : Scene σ} (h : Step b clock config rows t x y) {l : Nat} {p : String}
    {why : Stop} (hl : y.stages l = .listed p (.error why)) :
    x.stages l = .listed p (.error why) ∨ FailsIn b clock config l p why t x := by
  cases h with
  | hit | miss | told | kept | appended | refused | removed =>
    obtain ⟨-, heq⟩ | hold := Stage.update_cases hl
    · cases heq
    · exact .inl hold
  | failed hc hx =>
    obtain ⟨rfl, heq⟩ | hold := Stage.update_cases hl
    · cases heq
      exact .inr (.asked hc hx)
    · exact .inl hold
  | @unkept _ c q h why' cache s hc hx =>
    obtain ⟨rfl, heq⟩ | hold := Stage.update_cases hl
    · cases heq
      rw [Shelf.exec_keep] at hx
      cases hput : x.cache.put? (exec clock x.state).1 p h (some config.amountsTicks) with
      | some cache' => simp [hput] at hx
      | none =>
        simp only [hput] at hx
        cases hx
        exact .inr (.unkept hc rfl (Cache.put?_ttl_eq_none hput))
    · exact .inl hold
  | passed => exact .inl hl

/-- In a run in which a reading comes to fail, it fails in one of the turns. -/
theorem Steps.failure {ts : List Turn} {x y : Scene σ} (hrun : Steps b clock config rows ts x y) {l : Nat}
    {p : String} {why : Stop} (hx : x.stages l ≠ .listed p (.error why))
    (hl : y.stages l = .listed p (.error why)) :
    ∃ done t left z, ts = done ++ t :: left ∧ Steps b clock config rows done x z ∧
      Steps b clock config rows (t :: left) z y ∧ FailsIn b clock config l p why t z := by
  induction hrun with
  | rest x => exact absurd hl hx
  | @turn t ts x y z hstep hrest ih =>
    by_cases hy : y.stages l = .listed p (.error why)
    · have hfails := (hstep.failure_cases hy).resolve_left hx
      exact ⟨[], t, ts, x, rfl, .rest x, .turn hstep hrest, hfails⟩
    · obtain ⟨done, t', left, u, rfl, hdone, hleft, hfails⟩ := ih hy hl
      exact ⟨t :: done, t', left, u, rfl, .turn hstep hdone, hleft, hfails⟩

/-- What calls were told before the append, they had asked before it. -/
theorem Steps.told_asked {ts : List Turn} {x y : Scene σ} (hrun : Steps b clock config rows ts x y)
    (hb : Gathers b clock rows) (hx : ∀ k, x.stages k = .idle) {k : Nat} {p : String} {h : History}
    (hk : y.stages k = .told p h) : .ask k ∈ ts := by
  refine hrun.keeps (I := fun done x => x.stages k = .told p h → .ask k ∈ done)
    (fun done t x y hx hstep hk => ?_) [] (fun hidle => ?_) hk
  · rcases hstep.told_cases hb hk with hold | ⟨rfl, -⟩
    · exact List.mem_append_left _ (hx hold)
    · exact List.mem_append_right _ (List.mem_singleton_self _)
  · rw [hx k] at hidle
    cases hidle

theorem Step.appended_cases {t : Turn} {x y : Scene σ} (h : Step b clock config rows t x y) {k : Nat} {p : String}
    {v : Version} (hk : x.stages k = .appended p v) :
    y.stages k = .appended p v ∨ (y.stages k).Final := by
  cases h with
  | hit hc | miss hc | told hc | failed hc | kept hc | unkept hc | appended hc | refused hc =>
    exact .inl (Stage.update_other hk (by simp [hc]))
  | removed =>
    simp only [Function.update_apply]
    split
    · exact .inr trivial
    · exact .inl hk
  | passed => exact .inl hk

/-- Between the two turns of an append that succeeds the price has the version. -/
theorem Steps.appending {c : Nat} {p : String} {new : NewVersion} {early between : List Turn} {x y : Scene σ}
    (hrun : Steps b clock config rows (.append c p new :: between) x y) (hb : Gathers b clock rows)
    (htold : ∀ k h, x.stages k = .told p h → .ask k ∈ early) {q : String} {v : Version}
    (hc : y.stages c = .appended q v) : p = q ∧ Present rows early p v y := by
  cases hrun with
  | @turn _ _ _ z _ hstep hrest =>
    have hstep' := hstep
    cases hstep with
    | @refused _ _ _ _ why _ _ hx =>
      have hended : y.stages c = .ended p (.error why) := hrest.final (by simp) trivial
      rw [hc] at hended
      cases hended
    | @appended _ _ _ _ v' s hidle hx =>
      have hpresent : Present rows early p v' ⟨x.cache, s, Function.update x.stages c (.appended p v')⟩ := by
        refine ⟨(hb.append hx).2 v' rfl, fun k h hk => ?_⟩
        rcases hstep'.told_cases hb hk with hold | ⟨heq, -⟩
        · exact .inr (htold k h hold)
        · cases heq
      obtain ⟨hpresent', hstage⟩ := hrest.keeps (I := fun _ z => Present rows early p v' z ∧
          (z.stages c = .appended p v' ∨ (z.stages c).Final)) (fun _ _ _ _ hz hstep =>
            ⟨hz.1.step hb hstep, hz.2.elim hstep.appended_cases fun hf => .inr (hstep.final rfl hf ▸ hf)⟩)
          [] ⟨hpresent, .inl (by simp)⟩
      rw [hc] at hstage
      rcases hstage with heq | hf
      · cases heq
        exact ⟨rfl, hpresent'⟩
      · exact hf.elim

/-- When the append ends, nothing is kept of the price. -/
theorem Present.removed {early : List Turn} {p : String} {v : Version} {x : Scene σ} (hx : Present rows early p v x)
    (c : Nat) : Cleared rows early [] p v
      ⟨x.cache.remove p, x.state, Function.update x.stages c (.ended p (.ok v))⟩ where
  there := hx.there
  told k h hk := by
    simp only [Function.update_apply] at hk
    split at hk
    · cases hk
    · exact hx.told k h hk
  kept e he := by
    rw [Cache.entry?_remove, if_pos rfl] at he
    cases he

/-- A reading that begins now gives a history with the version, or one that was kept without it. -/
theorem Cleared.reading {early done rest : List Turn} {l : Nat} {p : String} {v : Version} {h : History}
    {x y : Scene σ} (hx : Cleared rows early done p v x) (hb : Gathers b clock rows)
    (hrun : Steps b clock config rows (.lookUp l p :: rest) x y) (hl : y.stages l = .listed p (.ok h)) :
    v ∈ h ∨ ∃ k, .ask k ∈ early ∧ .keep k ∈ done ∧ y.stages k = .listed p (.ok h) := by
  have hfinal {k : Nat} {stage : Stage} (hk : x.stages k = stage) (hf : stage.Final) : y.stages k = stage :=
    hrun.final hk hf
  cases hrun with
  | @turn _ _ _ z _ hstep hrest =>
    have hpresent := hx.toPresent.step hb hstep
    cases hstep with
    | @hit _ _ _ found cache s _ hlook =>
      have hlisted : y.stages l = .listed p (.ok found) := hrest.final (by simp) trivial
      rw [hl] at hlisted
      cases hlisted
      simp only [Shelf.exec_lookUp, Prod.mk.injEq, Except.ok.injEq, Cache.get_fst] at hlook
      obtain ⟨e, hlive, rfl⟩ := Option.map_eq_some_iff.1 hlook.1
      refine (hx.kept e (Cache.live?_eq_some hlive)).imp_right fun hk => ?_
      obtain ⟨k, hask, hkeep, hk⟩ := hk
      exact ⟨k, hask, hkeep, hfinal hk trivial⟩
    | miss =>
      obtain ⟨-, hsees⟩ := hrest.keeps (I := fun _ z => v ∈ rows z.state p ∧ (z.stages l).Sees p v)
        (fun _ _ _ _ hz hstep => ⟨hstep.grows hb p hz.1, hstep.sees hb hz.1 hz.2⟩) []
        ⟨hpresent.there, by simp [Stage.Sees]⟩
      rw [hl] at hsees
      exact .inl hsees

/-- A reading that begins now and fails does so in a turn of its own. -/
theorem Steps.reading_failure {l : Nat} {p : String} {why : Stop} {rest : List Turn} {x y : Scene σ}
    (hrun : Steps b clock config rows (.lookUp l p :: rest) x y) (hl : y.stages l = .listed p (.error why)) :
    ∃ done t left z, rest = done ++ t :: left ∧ Steps b clock config rows (.lookUp l p :: done) x z ∧
      Steps b clock config rows (t :: left) z y ∧ FailsIn b clock config l p why t z := by
  cases hrun with
  | @turn _ _ _ u _ hstep hrest =>
    have hu : u.stages l ≠ .listed p (.error why) := by
      cases hstep <;> simp
    obtain ⟨done, t, left, z, rfl, hdone, hleft, hfails⟩ := hrest.failure hu hl
    exact ⟨done, t, left, z, rfl, .turn hstep hdone, hleft, hfails⟩

/-- However calls take turns, a reading that looks its price up when an append to it has ended gives a
history with the version, or one that another reading was told before the append and kept after it. It
fails only in a turn of its own after that: the backend fails when it asks, or the clock cannot show the
end of what it would keep. -/
theorem later_reading_has_version (b : Backend m) (clock : m Ticks) (config : CacheConfig)
    (rows : σ → String → History) (hb : Gathers b clock rows) (before between after rest : List Turn) {x y : Scene σ}
    {c l : Nat} {p : String} {new : NewVersion} {v : Version} {result : Except Stop History}
    (hrun : Steps b clock config rows
      (before ++ .append c p new :: between ++ .remove c :: after ++ .lookUp l p :: rest) x y)
    (hx : ∀ k, x.stages k = .idle) (hc : y.stages c = .ended p (.ok v)) (hl : y.stages l = .listed p result) :
    match result with
    | .ok h => v ∈ h ∨ ∃ k, .ask k ∈ before ∧ .keep k ∈ after ∧ y.stages k = .listed p (.ok h)
    | .error why => ∃ done t left z, rest = done ++ t :: left ∧
        Steps b clock config rows
          (before ++ .append c p new :: between ++ .remove c :: after ++ .lookUp l p :: done) x z ∧
        Steps b clock config rows (t :: left) z y ∧ FailsIn b clock config l p why t z := by
  obtain ⟨x₅, h₅, hlook⟩ := hrun.of_append
  cases result with
  | error why =>
    obtain ⟨done, t, left, z, hrest, hdone, hleft, hfails⟩ := hlook.reading_failure hl
    exact ⟨done, t, left, z, hrest, h₅.append hdone, hleft, hfails⟩
  | ok h =>
    obtain ⟨x₃, h₃, hremove⟩ := h₅.of_append
    obtain ⟨x₁, h₁, happend⟩ := h₃.of_append
    cases hremove with
    | turn hstep hafter =>
      cases hstep with
      | @removed _ _ q v' hc₃ =>
        obtain ⟨rfl, hpresent⟩ := happend.appending hb (fun k h => h₁.told_asked hb hx) hc₃
        have hended : x₅.stages c = .ended p (.ok v') := hafter.final (by simp) trivial
        have hsame := hlook.final hended trivial
        rw [hc] at hsame
        cases hsame
        have hcleared : Cleared rows before after p v x₅ :=
          hafter.keeps (I := fun done z => Cleared rows before done p v z)
            (fun _ _ _ _ hz hstep => hz.step hb hstep) [] (hpresent.removed c)
        exact hcleared.reading hb hlook hl

/-! ## The store -/

/-- The store gathers versions, whatever it is told to fail at. -/
theorem Store.gathers {τ : Type} [Stateful m τ] {clock : StateT Store m Ticks}
    (hclock : ∀ s : Store × τ, (exec clock s).2.1.historyOf = s.1.historyOf) :
    Gathers (Store.backend (m := m)) clock (fun s : Store × τ => s.1.historyOf) where
  look s q := by rw [hclock]; exact List.Subset.refl _
  history := by
    intro s t p r hx
    obtain ⟨s, rest⟩ := s
    rw [Store.exec_history] at hx
    cases hx
    refine ⟨fun q => List.Subset.refl _, fun h hh => ?_⟩
    cases hfail : s.failing.lookup .history <;> simp [hfail] at hh
    exact hh ▸ List.Subset.refl _
  append := by
    intro s t p new r hx
    obtain ⟨s, rest⟩ := s
    rw [Store.exec_append] at hx
    cases hfail : s.failing.lookup .append with
    | some text =>
      simp only [hfail] at hx
      cases hx
      exact ⟨fun q => List.Subset.refl _, by simp⟩
    | none =>
      simp only [hfail] at hx
      cases hx
      let s' : Store := { s with orders := s.orders ++ [new], asked := s.asked ++ [.append] }
      have hrows (q : String) : (s'.append p new).historyOf q =
          if q = p then s.historyOf q ++ [s.versionOf p new] else s.historyOf q :=
        congrFun (congrArg Books.history (s'.books_append p new)) q
      refine ⟨fun q v hv => ?_, fun v hv => ?_⟩
      · show v ∈ (s'.append p new).historyOf q
        rw [hrows]
        split
        · exact List.mem_append_left _ hv
        · exact hv
      · cases hv
        show s.versionOf p new ∈ (s'.append p new).historyOf p
        rw [hrows, if_pos rfl]
        exact List.mem_append_right _ (List.mem_singleton_self _)

/-- No call has begun, and nothing is kept of a store with one version. -/
def Store.scene : Scene (Store × Ticks) := ⟨Cache.empty, (Store.sample, 0), fun _ => .idle⟩

def Store.order : NewVersion := ⟨"USD", Decimal.unit 0, Instant.epoch⟩

/-- Turns of calls to the store, by a clock that goes on at every look. -/
abbrev Store.Steps : List Turn → Scene (Store × Ticks) → Scene (Store × Ticks) → Prop :=
  Tariff.Steps (Store.backend (m := StateM Ticks)) Store.ticking ⟨5, 5⟩ fun s => s.1.historyOf

/-- What a call was told is kept if the clock can show the end of it. -/
theorem Step.keep_shown {x : Scene σ} {c : Nat} {p : String} {h : History} (hc : x.stages c = .told p h)
    (hshown : (exec clock x.state).1 + config.amountsTicks < clockEnd) :
    Step b clock config rows (.keep c) x
      ⟨⟨(p, ⟨h, some ((exec clock x.state).1 + config.amountsTicks)⟩) :: (x.cache.remove p).entries⟩,
        (exec clock x.state).2, Function.update x.stages c (.listed p (.ok h))⟩ :=
  .kept hc (by rw [Shelf.exec_keep]; simp [Cache.put?, Cache.expiry?, hshown])

/-- So a reading of the store that begins when an append has ended has the version. -/
theorem later_reading_has_version_in_store :
    ∃ y h, Store.Steps [.append 1 "price_1" Store.order, .remove 1, .lookUp 2 "price_1", .ask 2, .keep 2]
        Store.scene y ∧
      y.stages 1 = .ended "price_1" (.ok (Store.sample.versionOf "price_1" Store.order)) ∧
      y.stages 2 = .listed "price_1" (.ok h) ∧ Store.sample.versionOf "price_1" Store.order ∈ h := by
  have hrun : ∃ y h, Store.Steps [.append 1 "price_1" Store.order, .remove 1, .lookUp 2 "price_1", .ask 2, .keep 2]
      Store.scene y ∧ y.stages 1 = .ended "price_1" (.ok (Store.sample.versionOf "price_1" Store.order)) ∧
      y.stages 2 = .listed "price_1" (.ok h) :=
    ⟨_, _, .turn (.appended rfl rfl) (.turn (.removed rfl) (.turn (.miss rfl rfl) (.turn (.told rfl rfl)
      (.turn (.keep_shown rfl (by decide +kernel)) (.rest _))))), rfl, rfl⟩
  obtain ⟨y, h, hsteps, hended, hlisted⟩ := hrun
  have hgathers : Gathers (Store.backend (m := StateM Ticks)) Store.ticking fun s => s.1.historyOf :=
    Store.gathers fun _ => rfl
  have hhas := later_reading_has_version Store.backend Store.ticking ⟨5, 5⟩ (fun s => s.1.historyOf) hgathers
    [] [] [] [.ask 2, .keep 2] hsteps (fun _ => rfl) hended hlisted
  simp only [List.not_mem_nil, false_and, exists_false, or_false] at hhas
  exact ⟨y, h, hsteps, hended, hlisted, hhas⟩

/-- A history that was asked for before an append, and kept after it, hides the version from a reading
that begins when the append has ended. -/
theorem late_keeping_hides_version :
    ∃ y h, Store.Steps [.lookUp 0 "price_1", .ask 0, .append 1 "price_1" Store.order, .remove 1, .keep 0,
        .lookUp 2 "price_1"] Store.scene y ∧
      y.stages 1 = .ended "price_1" (.ok (Store.sample.versionOf "price_1" Store.order)) ∧
      y.stages 2 = .listed "price_1" (.ok h) ∧ Store.sample.versionOf "price_1" Store.order ∉ h := by
  exact ⟨_, Store.sample.historyOf "price_1", .turn (.miss rfl rfl) (.turn (.told rfl rfl)
    (.turn (.appended rfl rfl) (.turn (.removed rfl) (.turn (.keep_shown rfl (by decide +kernel))
      (.turn (.hit rfl rfl) (.rest _)))))), rfl, rfl, by decide +kernel⟩

end Tariff
