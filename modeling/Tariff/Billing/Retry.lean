/-
  Tariff.Billing.Retry — trying an operation again.
-/

namespace Tariff

/-- Run an operation until it succeeds, at most `retries` times more after the first, with a
pause between two attempts. The last failure is the one that counts. -/
def retry {m : Type → Type} [Monad m] {ε α : Type} (attempt : m (Except ε α)) (pause : m Unit) :
    Nat → m (Except ε α)
  | 0 => attempt
  | retries + 1 => do
    match ← attempt with
    | .ok a => return .ok a
    | .error _ => do
      pause
      retry attempt pause retries

end Tariff
