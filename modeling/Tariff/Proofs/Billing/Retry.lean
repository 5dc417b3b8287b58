import Mathlib
import Tariff.Billing.Retry
/-
  Tariff.Proofs.Billing.Retry — how often an operation is tried again, and when there is a pause.

  The loop is also written as a machine runs it (`retryCounting`): it knows no more than the number of the
  attempt that it makes, which it counts up as long as the counter has room. For fewer retries than the
  counter has numbers there is always room, and the two are one loop (`retryCounting_eq`).

  An operation is given by the outcomes that its attempts would have, and the loop is watched. Before the
  attempt of number n, n - 1 attempts have failed, with a pause behind each (`retry_scripted`, by induction on
  the retries that are left). So the first success ends the loop, or else the attempt behind the last retry
  does, and its outcome is the result (`retry_ends_with_first_success_or_last`).
-/

namespace Tariff

/-! ## Counting the attempts -/

section

variable {m : Type → Type} [Monad m] {ε α : Type}

/-- The loop from the attempt of this number on. The counter of attempts shows no number beyond `top`; where it
would have to, the loop comes to nothing. -/
def retryCounting (top : Nat) (attempt : m (Except ε α)) (pause : m Unit) (retries number : Nat) :
    m (Option (Except ε α)) := do
  match ← attempt with
  | .ok a => return some (.ok a)
  | .error e =>
    if retries < number then return some (.error e)
    else if number < top then do
      pause
      retryCounting top attempt pause retries (number + 1)
    else return none
termination_by top - number

variable [LawfulMonad m] {attempt : m (Except ε α)} {pause : m Unit}

/-- The counter has room for every attempt if it has room for one more than there are retries. -/
theorem retryCounting_eq {top retries : Nat} (htop : retries < top) {left number : Nat}
    (hnumber : number + left = retries + 1) :
    retryCounting top attempt pause retries number = some <$> retry attempt pause left := by
  induction left generalizing number with
  | zero =>
    have hlast : retries < number := by omega
    rw [retryCounting, retry, map_eq_pure_bind]
    congr 1
    funext outcome
    cases outcome with
    | ok a => rfl
    | error e => simp only [hlast, ↓reduceIte]
  | succ left ih =>
    have hmore : ¬ retries < number := by omega
    have hroom : number < top := by omega
    rw [retryCounting, retry, map_bind]
    congr 1
    funext outcome
    cases outcome with
    | ok a => simp only [map_pure]
    | error e =>
      have hnext := @ih (number + 1) (by omega)
      simp only [hmore, hroom, ↓reduceIte, hnext, map_bind]

end

/-! ## Watching the loop -/

/-- What a loop does, one thing after another. -/
inductive RetryEvent where
  | attempt
  /-- A pause of so many milliseconds. -/
  | wait (ms : Nat)
  deriving DecidableEq, Repr

/-- How many attempts there were. -/
def attempts (past : List RetryEvent) : Nat := past.count .attempt

variable {ε α : Type} (outcomes : Nat → Except ε α) (ms : Nat)

/-- An operation whose attempts have these outcomes, one after another. -/
def scripted : StateM (List RetryEvent) (Except ε α) := fun past => (outcomes (attempts past), past ++ [.attempt])

def waiting : StateM (List RetryEvent) Unit := fun past => ((), past ++ [.wait ms])

/-- What has happened when an attempt has failed and the pause behind it is over. -/
def failedFrom (past : List RetryEvent) : List RetryEvent := past ++ [.attempt] ++ [.wait ms]

/-- So many attempts with a pause behind each, and one more. -/
def course (failures : Nat) : List RetryEvent :=
  (List.replicate failures [.attempt, .wait ms]).flatten ++ [.attempt]

theorem append_course_succ (past : List RetryEvent) (failures : Nat) :
    past ++ course ms (failures + 1) = failedFrom ms past ++ course ms failures := by
  simp [course, failedFrom, List.replicate_succ]

theorem attempts_failedFrom (past : List RetryEvent) : attempts (failedFrom ms past) = attempts past + 1 := by
  simp [attempts, failedFrom]

/-- With a retry left, a failure is followed by a pause and by what the loop does with one retry fewer. -/
theorem retry_scripted_step (left : Nat) (past : List RetryEvent) :
    (retry (scripted outcomes) (waiting ms) (left + 1)).run past =
      match outcomes (attempts past) with
      | .ok a => (.ok a, past ++ [.attempt])
      | .error _ => (retry (scripted outcomes) (waiting ms) left).run (failedFrom ms past) := by
  have hattempt : (scripted outcomes).run past = pure (outcomes (attempts past), past ++ [.attempt]) := rfl
  rw [retry, StateT.run_bind, hattempt, pure_bind]
  cases outcomes (attempts past) <;> rfl

/-- The loop goes on until an attempt succeeds or no retry is left. -/
theorem retry_scripted {failures left : Nat} {past : List RetryEvent} (hleft : failures ≤ left)
    (hfailed : ∀ j < failures, ∃ e, outcomes (attempts past + j) = .error e)
    (hlast : failures = left ∨ ∃ a, outcomes (attempts past + failures) = .ok a) :
    (retry (scripted outcomes) (waiting ms) left).run past =
      (outcomes (attempts past + failures), past ++ course ms failures) := by
  induction failures generalizing left past with
  | zero =>
    cases left with
    | zero => rfl
    | succ left =>
      obtain ⟨a, ha⟩ := hlast.resolve_left (by omega)
      have hnow : outcomes (attempts past) = .ok a := ha
      rw [retry_scripted_step, hnow, ha]
      rfl
  | succ failures ih =>
    obtain ⟨left, rfl⟩ : ∃ n, left = n + 1 := ⟨left - 1, by omega⟩
    obtain ⟨e, he⟩ := hfailed 0 (by omega)
    have hnow : outcomes (attempts past) = .error e := he
    -- the attempt that fails now is one of the past for those behind it
    have hshift : ∀ j, attempts (failedFrom ms past) + j = attempts past + (j + 1) := by
      intro j
      rw [attempts_failedFrom]
      omega
    rw [retry_scripted_step, hnow]
    show (retry (scripted outcomes) (waiting ms) left).run (failedFrom ms past) = _
    have hrest := @ih left (failedFrom ms past) (by omega)
      (fun j hj => by rw [hshift]; exact hfailed (j + 1) (by omega))
      (by rw [hshift]; exact hlast.imp_left (by omega))
    rw [hrest, hshift, append_course_succ]

/-- With fewer retries than the counter of attempts has numbers, the loop ends and the counter never runs over.
It ends with the first success, if one comes with the first attempt or a retry, and else with the failure of
the last retry. Each attempt before that one failed, and behind each of these, and nowhere else, there is a
pause. -/
theorem retry_ends_with_first_success_or_last {top retries : Nat} (htop : retries < top) :
    let counting : Option (Except ε α) × List RetryEvent :=
      (retryCounting top (scripted outcomes) (waiting ms) retries 1).run []
    let plain : Except ε α × List RetryEvent := (retry (scripted outcomes) (waiting ms) retries).run []
    counting = (some plain.1, plain.2) ∧
      (∀ k a, k ≤ retries → (∀ j < k, ∃ e, outcomes j = .error e) → outcomes k = .ok a →
        counting = (some (.ok a), (List.replicate k [.attempt, .wait ms]).flatten ++ [.attempt])) ∧
      ((∀ j ≤ retries, ∃ e, outcomes j = .error e) →
        ∃ e, outcomes retries = .error e ∧
          counting = (some (.error e), (List.replicate retries [.attempt, .wait ms]).flatten ++ [.attempt])) := by
  intro counting plain
  have hcounting : counting = (some plain.1, plain.2) := by
    have heq : retryCounting top (scripted outcomes) (waiting ms) retries 1 =
        some <$> retry (scripted outcomes) (waiting ms) retries := retryCounting_eq htop (Nat.add_comm 1 retries)
    show StateT.run (retryCounting top (scripted outcomes) (waiting ms) retries 1) [] = _
    rw [heq]
    rfl
  have hstart : ∀ j, attempts [] + j = j := fun j => Nat.zero_add j
  refine ⟨hcounting, fun k a hk hfailed ha => ?_, fun hfailed => ?_⟩
  · have hplain : plain = (outcomes (attempts [] + k), [] ++ course ms k) := retry_scripted outcomes ms hk
      (fun j hj => by rw [hstart]; exact hfailed j hj) (.inr ⟨a, by rw [hstart]; exact ha⟩)
    rw [hcounting, hplain, hstart, ha]
    rfl
  · obtain ⟨e, he⟩ := hfailed retries le_rfl
    have hplain : plain = (outcomes (attempts [] + retries), [] ++ course ms retries) :=
      retry_scripted outcomes ms le_rfl
      (fun j hj => by rw [hstart]; exact hfailed j hj.le) (.inl rfl)
    refine ⟨e, he, ?_⟩
    rw [hcounting, hplain, hstart, he]
    rfl

/-- Two failures and a success, with three retries and a counter of 64 bits: the success is the third attempt,
and there are two pauses. -/
theorem retry_ends_with_third_attempt :
    let outcomes : Nat → Except String Nat := fun n => if n < 2 then .error "refused" else .ok n
    3 < 2 ^ 64 - 1 ∧
      (retryCounting (2 ^ 64 - 1) (scripted outcomes) (waiting 500) 3 1).run [] =
        (some (.ok 2), [.attempt, .wait 500, .attempt, .wait 500, .attempt]) := by
  intro outcomes
  have htop : 3 < 2 ^ 64 - 1 := by decide
  obtain ⟨-, hsuccess, -⟩ := retry_ends_with_first_success_or_last outcomes 500 htop
  exact ⟨htop, hsuccess 2 2 (by decide) (fun j hj => ⟨"refused", if_pos hj⟩) rfl⟩

/-- With as many retries as the counter has numbers, it runs over. -/
example : ((retryCounting 2 (scripted fun _ => (.error () : Except Unit Unit)) (waiting 5) 2 1).run []).1 = none := by
  cbv

end Tariff
