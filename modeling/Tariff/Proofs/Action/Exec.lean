import Mathlib
import Tariff.Command.Console
/-
  Tariff.Proofs.Action.Exec — actions as functions of a state.

  The commands are written for any monad. Here the monad is one whose actions are functions of a
  state (`Stateful`): a state monad, or one with further state on top. An action that may stop
  then takes a state to a result and a state (`Act.exec`), and each way of putting actions
  together has one equation, so that nothing below unfolds a monad again.
-/

namespace Tariff

/-- A monad whose actions are functions of a state. -/
class Stateful (m : Type → Type) [Monad m] (σ : outParam Type) where
  exec {α : Type} (x : m α) (s : σ) : α × σ
  exec_pure {α : Type} (a : α) (s : σ) : exec (pure a) s = (a, s)
  exec_bind {α β : Type} (x : m α) (f : α → m β) (s : σ) :
    exec (x >>= f) s = exec (f (exec x s).1) (exec x s).2
  exec_map {α β : Type} (f : α → β) (x : m α) (s : σ) : exec (f <$> x) s = (f (exec x s).1, (exec x s).2)

namespace Stateful

attribute [simp] exec_pure exec_bind exec_map

instance {σ : Type} : Stateful (StateM σ) σ where
  exec x s := x s
  exec_pure _ _ := rfl
  exec_bind _ _ _ := rfl
  exec_map _ _ _ := rfl

variable {m : Type → Type} [Monad m] {σ ρ : Type} [Stateful m σ] {α β : Type}

instance : Stateful (StateT ρ m) (ρ × σ) where
  exec x s := let r := exec (x.run s.1) s.2; (r.1.1, r.1.2, r.2)
  exec_pure a s := by simp
  exec_bind x f s := by simp
  exec_map f x s := by
    have hmap : (f <$> x).run s.1 = x.run s.1 >>= fun p => pure (f p.1, p.2) := rfl
    simp [hmap]

theorem exec_stateT (x : StateT ρ m α) (r : ρ) (s : σ) :
    exec x (r, s) = ((exec (x.run r) s).1.1, (exec (x.run r) s).1.2, (exec (x.run r) s).2) := rfl

end Stateful

open Stateful

variable {m : Type → Type} [Monad m] {σ ρ : Type} [Stateful m σ] {α β : Type}

/-- What an action that may stop comes to from a state, and the state that it leaves. -/
def Act.exec (x : Act m α) (s : σ) : Except Stop α × σ := Stateful.exec x.run s

namespace Act

@[simp] theorem exec_pure (a : α) (s : σ) : (pure a : Act m α).exec s = (.ok a, s) := by
  simp [Act.exec]

@[simp] theorem exec_throw (e : Stop) (s : σ) : (throw e : Act m α).exec s = (.error e, s) := by
  simp [Act.exec]

/-- An action goes on from where the one before it ended, unless that one stopped. -/
theorem exec_bind (x : Act m α) (f : α → Act m β) (s : σ) :
    (x >>= f).exec s = match x.exec s with
      | (.ok a, t) => (f a).exec t
      | (.error e, t) => (.error e, t) := by
  simp only [Act.exec, ExceptT.run_bind, Stateful.exec_bind]
  rcases Stateful.exec x.run s with ⟨r, t⟩
  cases r <;> simp

/-- Returning something else changes only the result. -/
theorem exec_bind_pure (x : Act m α) (f : α → β) (s : σ) :
    (x >>= fun a => pure (f a)).exec s = ((x.exec s).1.map f, (x.exec s).2) := by
  rw [exec_bind]
  rcases x.exec s with ⟨_ | a, t⟩ <;> simp [Except.map]

theorem exec_discard (x : Act m α) (s : σ) :
    Act.exec (discard x) s = ((x.exec s).1.map fun _ => (), (x.exec s).2) := by
  show Stateful.exec (ExceptT.run (ExceptT.map (Function.const _ ()) x)) s = _
  have hexec : Stateful.exec (m := m) (σ := σ) (α := Except Stop α) x s = x.exec s := rfl
  rw [ExceptT.map, ExceptT.run_mk, Stateful.exec_bind, hexec]
  rcases x.exec s with ⟨_ | a, t⟩
  · exact Stateful.exec_pure _ _
  · exact Stateful.exec_pure _ _

@[simp] theorem exec_liftM (x : m α) (s : σ) :
    (liftM x : Act m α).exec s = (.ok (Stateful.exec x s).1, (Stateful.exec x s).2) := by
  simp [Act.exec, liftM]

/-- An action of the monad below the state leaves the state. -/
@[simp] theorem exec_liftM_stateT (x : m α) (r : ρ) (s : σ) :
    (liftM x : Act (StateT ρ m) α).exec (r, s) = (.ok (Stateful.exec x s).1, r, (Stateful.exec x s).2) := by
  show Stateful.exec (ExceptT.run (ExceptT.lift (StateT.lift x : StateT ρ m α))) (r, s) = _
  simp [ExceptT.lift, Stateful.exec_stateT, StateT.run, StateT.lift]

@[simp] theorem exec_exceptT_lift (x : m α) (s : σ) :
    Act.exec (ExceptT.lift x : Act m α) s = (.ok (Stateful.exec x s).1, (Stateful.exec x s).2) := by
  simp [Act.exec, ExceptT.lift]

@[simp] theorem exec_lift (x : Act m α) (r : ρ) (s : σ) :
    (Act.lift x : Act (StateT ρ m) α).exec (r, s) = ((x.exec s).1, r, (x.exec s).2) := by
  simp [Act.exec, Act.lift, exec_stateT, StateT.run, StateT.lift]

@[simp] theorem exec_get (r : ρ) (s : σ) : (get : Act (StateT ρ m) ρ).exec (r, s) = (.ok r, r, s) := by
  show Stateful.exec (ExceptT.run (ExceptT.lift (StateT.get : StateT ρ m ρ))) (r, s) = _
  simp [ExceptT.lift, exec_stateT, StateT.get, StateT.run]

@[simp] theorem exec_set (r r' : ρ) (s : σ) :
    (set r' : Act (StateT ρ m) Unit).exec (r, s) = (.ok (), r', s) := by
  show Stateful.exec (ExceptT.run (ExceptT.lift (StateT.set r' : StateT ρ m PUnit))) (r, s) = _
  simp [ExceptT.lift, exec_stateT, StateT.set, StateT.run]

@[simp] theorem exec_modify (f : ρ → ρ) (r : ρ) (s : σ) :
    (modify f : Act (StateT ρ m) Unit).exec (r, s) = (.ok (), f r, s) := by
  show Stateful.exec (ExceptT.run (ExceptT.lift
    (StateT.modifyGet (fun r => ((), f r)) : StateT ρ m PUnit))) (r, s) = _
  simp [ExceptT.lift, exec_stateT, StateT.modifyGet, StateT.run]

@[simp] theorem exec_ofExcept {ε : Type} (wrap : ε → Fault) (r : Except ε α) (s : σ) :
    (Act.ofExcept wrap r : Act m α).exec s = (r.mapError (fun e => .fault (wrap e)), s) := by
  cases r <;> simp [Act.ofExcept, Except.mapError]

@[simp] theorem exec_ofOption (r : Option α) (s : σ) :
    (Act.ofOption r : Act m α).exec s = (r.elim (.error .halt) .ok, s) := by
  cases r <;> simp [Act.ofOption]

theorem exec_adapt (f : Stop → Stop) (x : Act m α) (s : σ) :
    Act.exec (ExceptT.adapt f x) s = ((x.exec s).1.mapError f, (x.exec s).2) := by
  show Stateful.exec (Except.mapError f <$> x.run) s = _
  rw [Stateful.exec_map]
  rfl

end Act

namespace Console

@[simp] theorem exec_say (page : String) (pages : List String) (s : σ) :
    (Console.say page : Console m Unit).exec (pages, s) = (.ok (), pages ++ [page], s) :=
  Act.exec_modify _ _ _

/-- Doing something that shows nothing leaves the pages. -/
@[simp] theorem exec_perform (x : Act m α) (pages : List String) (s : σ) :
    (Console.perform x).exec (pages, s) = ((x.exec s).1, pages, (x.exec s).2) :=
  Act.exec_lift _ _ _

end Console

end Tariff
