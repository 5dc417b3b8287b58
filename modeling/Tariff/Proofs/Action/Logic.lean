import Mathlib
import Tariff.Proofs.Action.Exec
/-
  Tariff.Proofs.Action.Logic — what an action ensures, and when two actions do the same.

  `Ensures` is a statement about every end of an action, stops included, and `Keeps` one that only
  speaks of the state. `Agree` compares actions over different states: from related states they
  come to the same result and to related states again, as long as it is not late. All go through
  sequencing, so a command does what its parts do.
-/

namespace Tariff

namespace Act

variable {m n : Type → Type} [Monad m] [Monad n] {σ τ : Type} [Stateful m σ] [Stateful n τ] {α β : Type}

/-- However the action ends, this holds of its result and of the state that it leaves. -/
def Ensures (x : Act m α) (s : σ) (post : Except Stop α → σ → Prop) : Prop :=
  post (x.exec s).1 (x.exec s).2

theorem Ensures.mono {x : Act m α} {s : σ} {p q : Except Stop α → σ → Prop} (h : x.Ensures s p)
    (hpq : ∀ r t, p r t → q r t) : x.Ensures s q := hpq _ _ h

theorem Ensures.bind {x : Act m α} {f : α → Act m β} {s : σ} {mid : Except Stop α → σ → Prop}
    {post : Except Stop β → σ → Prop} (hx : x.Ensures s mid)
    (hok : ∀ a t, mid (.ok a) t → (f a).Ensures t post)
    (hstop : ∀ e t, mid (.error e) t → post (.error e) t) : (x >>= f).Ensures s post := by
  unfold Ensures at *
  rw [exec_bind]
  rcases hr : x.exec s with ⟨_ | a, t⟩
  · rw [hr] at hx
    exact hstop _ _ hx
  · rw [hr] at hx
    exact hok _ _ hx

theorem ensures_of_exec {x : Act m α} {s t : σ} {r : Except Stop α} {post : Except Stop α → σ → Prop}
    (h : x.exec s = (r, t)) (hp : post r t) : x.Ensures s post := by
  unfold Ensures
  rw [h]
  exact hp

/-! ## What actions keep -/

/-- Where this holds before the action, it holds after it. -/
def Keeps (I : σ → Prop) (x : Act m α) : Prop := ∀ s, I s → I (x.exec s).2

variable {I : σ → Prop}

theorem Keeps.pure (a : α) : Keeps I (Pure.pure a : Act m α) := fun s h => by simpa using h

theorem Keeps.throw (e : Stop) : Keeps I (MonadExcept.throw e : Act m α) := fun s h => by simpa using h

theorem Keeps.bind {x : Act m α} {f : α → Act m β} (hx : x.Keeps I) (hf : ∀ a, (f a).Keeps I) :
    Keeps I (x >>= f) := by
  intro s h
  have hkept := hx s h
  rw [exec_bind]
  rcases hr : x.exec s with ⟨_ | a, t⟩ <;> rw [hr] at hkept
  · exact hkept
  · exact hf a t hkept

theorem Keeps.ite {c : Prop} [Decidable c] {x y : Act m α} (hx : x.Keeps I) (hy : y.Keeps I) :
    Keeps I (if c then x else y) := by
  by_cases hc : c
  · rw [if_pos hc]
    exact hx
  · rw [if_neg hc]
    exact hy

theorem Keeps.ofExcept {ε : Type} (wrap : ε → Fault) (r : Except ε α) :
    Keeps I (Act.ofExcept wrap r : Act m α) :=
  fun s h => by simpa using h

theorem Keeps.ofOption (r : Option α) : Keeps I (Act.ofOption r : Act m α) := fun s h => by simpa using h

theorem Keeps.adapt {x : Act m α} (hx : x.Keeps I) (f : Stop → Stop) : Keeps I (m := m) (ExceptT.adapt f x) := by
  intro s h
  rw [exec_adapt]
  exact hx s h

theorem Keeps.discard {x : Act m α} (hx : x.Keeps I) : Keeps I (m := m) (discard x) := by
  intro s h
  rw [exec_discard]
  exact hx s h

/-- From related states the actions come to one result and to related states, unless it is late
when the first one ends. Once it is late it stays late. -/
structure Agree (late : σ → Prop) (R : σ → τ → Prop) (x : Act m α) (y : Act n α) : Prop where
  stays : x.Keeps late
  same : ∀ s t, R s t → late (x.exec s).2 ∨ ((x.exec s).1 = (y.exec t).1 ∧ R (x.exec s).2 (y.exec t).2)

variable {late : σ → Prop} {R : σ → τ → Prop}

theorem Agree.pure (a : α) : Agree late R (Pure.pure a : Act m α) (Pure.pure a : Act n α) :=
  ⟨.pure a, fun s t h => by simpa using Or.inr h⟩

theorem Agree.throw (e : Stop) :
    Agree late R (MonadExcept.throw e : Act m α) (MonadExcept.throw e : Act n α) :=
  ⟨.throw e, fun s t h => by simpa using Or.inr h⟩

theorem Agree.bind {x : Act m α} {y : Act n α} {f : α → Act m β} {g : α → Act n β}
    (hxy : Agree late R x y) (hfg : ∀ a, Agree late R (f a) (g a)) : Agree late R (x >>= f) (y >>= g) where
  stays := hxy.stays.bind fun a => (hfg a).stays
  same s t h := by
    have hsame := hxy.same s t h
    rw [exec_bind, exec_bind]
    generalize x.exec s = p at hsame ⊢
    generalize y.exec t = q at hsame ⊢
    rcases p with ⟨_ | a, s'⟩
    · rcases q with ⟨_ | b, t'⟩
      · rcases hsame with hl | ⟨he, hr⟩
        · exact .inl hl
        · exact .inr ⟨congrArg _ (Except.error.inj he), hr⟩
      · exact .inl (hsame.resolve_right fun hr => nomatch hr.1)
    · rcases hsame with hl | ⟨he, hr⟩
      · exact .inl ((hfg a).stays s' hl)
      · rcases q with ⟨_ | b, t'⟩
        · cases he
        · cases he
          exact (hfg a).same s' t' hr

theorem Agree.ite {c : Prop} [Decidable c] {x x' : Act m α} {y y' : Act n α} (h : Agree late R x y)
    (h' : Agree late R x' y') : Agree late R (if c then x else x') (if c then y else y') := by
  by_cases hc : c
  · rw [if_pos hc, if_pos hc]
    exact h
  · rw [if_neg hc, if_neg hc]
    exact h'

theorem Agree.ofExcept {ε : Type} (wrap : ε → Fault) (r : Except ε α) :
    Agree late R (Act.ofExcept wrap r : Act m α) (Act.ofExcept wrap r : Act n α) := by
  cases r
  · exact Agree.throw _
  · exact Agree.pure _

theorem Agree.ofOption (r : Option α) :
    Agree late R (Act.ofOption r : Act m α) (Act.ofOption r : Act n α) := by
  cases r
  · exact Agree.throw _
  · exact Agree.pure _

theorem Agree.adapt {x : Act m α} {y : Act n α} (hxy : Agree late R x y) (f : Stop → Stop) :
    Agree late R (m := m) (n := n) (ExceptT.adapt f x) (ExceptT.adapt f y) where
  stays := hxy.stays.adapt f
  same s t h := by
    rw [exec_adapt, exec_adapt]
    rcases hxy.same s t h with hl | ⟨he, hr⟩
    · exact .inl hl
    · exact .inr ⟨by rw [he], hr⟩

theorem Agree.discard {x : Act m α} {y : Act n α} (hxy : Agree late R x y) :
    Agree late R (m := m) (n := n) (discard x) (discard y) where
  stays := hxy.stays.discard
  same s t h := by
    rw [exec_discard, exec_discard]
    rcases hxy.same s t h with hl | ⟨he, hr⟩
    · exact .inl hl
    · exact .inr ⟨by rw [he], hr⟩

end Act

namespace Console

variable {m n : Type → Type} [Monad m] [Monad n] {σ τ : Type} [Stateful m σ] [Stateful n τ] {α : Type}

/-- The same pages were shown, and the rest is related. -/
def Alike (R : σ → τ → Prop) (s : List String × σ) (t : List String × τ) : Prop := s.1 = t.1 ∧ R s.2 t.2

variable {late : σ → Prop} {R : σ → τ → Prop}

theorem keeps_say {I : σ → Prop} (page : String) :
    Act.Keeps (fun s => I s.2) (Console.say page : Console m Unit) := by
  intro s h
  rw [exec_say]
  exact h

theorem keeps_perform {I : σ → Prop} {x : Act m α} (hx : x.Keeps I) :
    Act.Keeps (fun s => I s.2) (Console.perform x) := by
  intro s h
  rw [exec_perform]
  exact hx s.2 h

theorem agree_say (page : String) :
    Act.Agree (fun s => late s.2) (Alike R) (Console.say page : Console m Unit)
      (Console.say page : Console n Unit) where
  stays := keeps_say page
  same := by
    intro x y hx
    obtain ⟨pages, s⟩ := x
    obtain ⟨_, t⟩ := y
    obtain ⟨rfl, h⟩ := hx
    rw [exec_say, exec_say]
    exact .inr ⟨rfl, rfl, h⟩

theorem agree_perform {x : Act m α} {y : Act n α} (hxy : Act.Agree late R x y) :
    Act.Agree (fun s => late s.2) (Alike R) (Console.perform x) (Console.perform y) where
  stays := keeps_perform hxy.stays
  same := by
    intro x y hx
    obtain ⟨pages, s⟩ := x
    obtain ⟨_, t⟩ := y
    obtain ⟨rfl, h⟩ := hx
    rw [exec_perform, exec_perform]
    rcases hxy.same s t h with hl | ⟨he, hr⟩
    · exact .inl hl
    · exact .inr ⟨he, rfl, hr⟩

end Console

end Tariff
