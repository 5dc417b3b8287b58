import Mathlib
import Tariff.Config.Load
import Tariff.Proofs.Action.Exec
import Tariff.Proofs.Decode.Record
/-
  Tariff.Proofs.Config.Fits — what holds of every configuration that loads.

  A number of seconds is read with 64 bits, and that is all that the reading says about it
  (`Config.load_fits`).
-/

namespace Tariff

open Stateful (exec)

/-! ## Loaded configurations -/

theorem Yaml.Node.natural_lt {bits n : Nat} {d : Yaml.Node} (h : d.natural bits = .ok n) : n < twoPow bits := by
  have hrefuse : ∀ {expected : String}, Yaml.Node.refuse (α := Nat) expected d ≠ .ok n := by
    intro expected h
    unfold Yaml.Node.refuse at h
    repeat' split at h
    all_goals cases h
  unfold Yaml.Node.natural at h
  split at h
  · split at h
    · split at h
      · cases h
        assumption
      · cases h
    · exact absurd h hrefuse
  · exact absurd h hrefuse

/-- What is decoded from a text was read from a node. -/
theorem Yaml.exists_node_of_decode {α : Type} {read : Yaml.Node → Except DecodeError α} {text : String} {a : α}
    (h : Yaml.decode read text = .ok a) : ∃ d, read d = .ok a := by
  unfold Yaml.decode at h
  simp only at h
  split at h
  · rename_i hread
    split at h
    · cases h
      exact ⟨_, hread⟩
    · cases h
  · cases h

/-- Answers are kept for a number of seconds that has at most 64 bits. -/
def CacheConfig.Fits (c : CacheConfig) : Prop := c.currenciesTtl < twoPow 64 ∧ c.amountsTtl < twoPow 64

theorem CacheConfig.decode_fits {d : Yaml.Node} {c : CacheConfig} (h : decode d = .ok c) : c.Fits := by
  have hkeeps : Field.Keeps (fun s : Partial => (∀ t ∈ s.currenciesTtl, t < twoPow 64) ∧
      ∀ t ∈ s.amountsTtl, t < twoPow 64) (fields (δ := Yaml.Node)) := by
    refine Field.keeps_cons (by rfl) ?currencies (Field.keeps_cons (by rfl) ?amounts Field.keeps_nil)
    case currencies =>
      intro d n s hn hs
      refine ⟨?_, hs.2⟩
      intro t ht
      cases ht
      exact Yaml.Node.natural_lt hn
    case amounts =>
      intro d n s hn hs
      refine ⟨hs.1, ?_⟩
      intro t ht
      cases ht
      exact Yaml.Node.natural_lt hn
  have getD_lt : ∀ {ttl : Option Nat} {n : Nat}, (∀ t ∈ ttl, t < twoPow 64) → n < twoPow 64 → ttl.getD n < twoPow 64 := by
    intro ttl n httl hn
    cases ttl with
    | none => exact hn
    | some t => exact httl t rfl
  obtain ⟨s, hfill, hc⟩ := exists_of_bind_eq_ok h
  cases hc
  obtain ⟨hcurrencies, hamounts⟩ := hkeeps.fill (by simp) hfill
  exact ⟨getD_lt hcurrencies (by decide), getD_lt hamounts (by decide)⟩

namespace Config

theorem decode_fits {d : Yaml.Node} {config : Config} (h : decode d = .ok config) : config.cache.Fits := by
  have hkeeps : Field.Keeps (fun s : Partial => ∀ c ∈ s.cache, c.Fits) (fields (δ := Yaml.Node)) := by
    refine Field.keeps_cons (by rfl) ?service (Field.keeps_cons (by rfl) ?cache Field.keeps_nil)
    case service =>
      intro d service s _ hs
      exact hs
    case cache =>
      intro d c s hc _ c' hc'
      cases hc'
      exact CacheConfig.decode_fits hc
  obtain ⟨s, hfill, hread⟩ := exists_of_bind_eq_ok h
  obtain ⟨service, -, hread⟩ := exists_of_bind_eq_ok hread
  cases hread
  have hcache := hkeeps.fill (by simp) hfill
  show (s.cache.getD .default).Fits
  cases hs : s.cache with
  | none => exact ⟨by decide, by decide⟩
  | some c => exact hcache c hs

/-- What loads was read from some text. -/
theorem exists_text_of_load {m : Type → Type} [Monad m] {σ : Type} [Stateful m σ] {disk : Disk m} {path : String}
    {s t : σ} {config : Config} (h : (load disk path).exec s = (.ok config, t)) :
    ∃ text, Yaml.decode decode text = .ok config := by
  simp only [load, Act.exec_bind, Act.exec_liftM, Act.exec_ofExcept] at h
  cases hread : (exec (disk.read path) s).1 with
  | error e => simp [hread, Except.mapError] at h
  | ok text =>
    refine ⟨text, (mapError_eq_ok_iff (f := fun e => Stop.fault (.undecodable .config path e))).1 ?_⟩
    simp only [hread, Except.mapError] at h
    exact congrArg Prod.fst h

theorem load_fits {m : Type → Type} [Monad m] {σ : Type} [Stateful m σ] {disk : Disk m} {path : String} {s t : σ}
    {config : Config} (h : (load disk path).exec s = (.ok config, t)) : config.cache.Fits := by
  obtain ⟨text, hdecode⟩ := exists_text_of_load h
  obtain ⟨d, hread⟩ := Yaml.exists_node_of_decode hdecode
  exact decode_fits hread

end Config

end Tariff
