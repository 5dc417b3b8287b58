import Tariff.Cache.Basic
/-
  Tariff.Cache.Bank — caches behind handles.

  A handle that is cloned shares the entries of the one it was cloned from; caches that are
  made apart share nothing.
-/

namespace Tariff

/-- Caches, and which of them each handle stands for. -/
structure CacheBank (K V : Type) where
  caches : List (Cache K V)
  handles : List Nat

/-- An operation through a handle. -/
inductive CacheOp (K V : Type) where
  | get (key : K)
  | put (key : K) (value : V) (ttl : Option Ticks)
  | remove (key : K)
  | clear
  deriving Repr

namespace CacheBank

variable {K V : Type} [DecidableEq K]

def empty : CacheBank K V := ⟨[], []⟩

/-- A handle of a new cache. -/
def open_ (b : CacheBank K V) : CacheBank K V :=
  ⟨b.caches ++ [.empty], b.handles ++ [b.caches.length]⟩

/-- Another handle of the same cache. -/
def clone (b : CacheBank K V) (handle : Nat) : CacheBank K V :=
  ⟨b.caches, b.handles ++ (b.handles[handle]?).toList⟩

/-- What a handle answers to an operation: a value for a look-up, and whether the operation
could be done. -/
structure Reply (V : Type) where
  value : Option V
  done : Bool

/-- Do an operation through a handle. -/
def apply (b : CacheBank K V) (handle : Nat) (now : Ticks) (op : CacheOp K V) :
    Reply V × CacheBank K V :=
  match b.handles[handle]? with
  | none => (⟨none, false⟩, b)
  | some n =>
    let c := b.caches[n]?.getD .empty
    let keep (c : Cache K V) : CacheBank K V := { b with caches := b.caches.set n c }
    match op with
    | .get key =>
      let (value, c) := c.get now key
      (⟨value, true⟩, keep c)
    | .put key value ttl =>
      match c.put? now key value ttl with
      | some c => (⟨none, true⟩, keep c)
      | none => (⟨none, false⟩, b)
    | .remove key => (⟨none, true⟩, keep (c.remove key))
    | .clear => (⟨none, true⟩, keep c.clear)

end CacheBank

end Tariff
