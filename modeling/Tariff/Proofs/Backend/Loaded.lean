import Mathlib
import Tariff.Proofs.Backend.Store
import Tariff.Proofs.Backend.Visits
import Tariff.Proofs.Config.Fits
/-
  Tariff.Proofs.Backend.Loaded — reading behind the shelf of a configuration that was loaded.

  A loaded configuration keeps answers for less than 2^64 seconds (`Config.load_fits`), but the clock
  shows only 2^63 seconds.

  - `loaded_reading_relays`: a reading gives what is kept and good, or else the answer of the backend,
    good or bad; unless that answer is to be kept until after the clock ends.
  - `loaded_reading_loses_answer`: there is a configuration that loads and with which it is.
-/

namespace Tariff

open Stateful (exec)

/-! ## Readings -/

namespace Shelf

variable {m : Type → Type} [Monad m] {σ : Type} [Stateful m σ] {K V : Type} [DecidableEq K]

/-- What a reading through a cache comes to. It is what is kept and good at the time of the clock, or else what the
backend answers, good or bad; but a good answer that is to be kept until after the clock ends is lost. -/
structure Relays (clock : m Ticks) (ttl : Ticks) (key : K) (read : Act m V) (c : Cache K V) (s : σ)
    (result : Except Stop V) : Prop where
  kept : ∀ e, c.live? (exec clock s).1 key = some e → result = .ok e.value
  told : ∀ answer u, c.live? (exec clock s).1 key = none → read.exec (exec clock s).2 = (answer, u) →
    (∀ v, answer = .ok v → (exec clock u).1 + ttl < clockEnd) → result = answer
  lost : ∀ v u, c.live? (exec clock s).1 key = none → read.exec (exec clock s).2 = (.ok v, u) →
    clockEnd ≤ (exec clock u).1 + ttl → result = .error .halt

/-- On a miss it is enough to look at the answer that was got. -/
theorem Relays.of_miss {clock : m Ticks} {ttl : Ticks} {key : K} {read : Act m V} {c : Cache K V}
    {s t u : σ} {now : Ticks} {result answer : Except Stop V} (look : exec clock s = (now, t))
    (miss : c.live? now key = none) (asked : read.exec t = (answer, u))
    (told : (∀ v, answer = .ok v → (exec clock u).1 + ttl < clockEnd) → result = answer)
    (lost : ∀ v, answer = .ok v → clockEnd ≤ (exec clock u).1 + ttl → result = .error .halt) :
    Relays clock ttl key read c s result where
  kept e he := by
    rw [look, miss] at he
    cases he
  told answer' u' _ hasked hshown := by
    rw [look, asked] at hasked
    cases hasked
    exact told hshown
  lost v u' _ hasked hbeyond := by
    rw [look, asked] at hasked
    cases hasked
    exact lost v rfl hbeyond

theorem Reading.relays {clock : m Ticks} {ttl : Ticks} {key : K} {read : Act m V} {c c' : Cache K V} {s t : σ}
    {result : Except Stop V} (h : Reading clock ttl key read c s result c' t) :
    Relays clock ttl key read c s result := by
  cases h with
  | @found now _ e look live =>
    have hlive : c.live? (exec clock s).1 key = some e := by rwa [look]
    constructor <;> rw [hlive]
    · intro e' he'
      cases he'
      rfl
    · intro answer u hmiss
      cases hmiss
    · intro v u hmiss
      cases hmiss
  | failed look miss asked =>
    apply Relays.of_miss look miss asked
    · intro _
      rfl
    · intro v hv
      cases hv
  | kept look miss asked look' put =>
    apply Relays.of_miss look miss asked
    · intro _
      rfl
    · intro v _ hbeyond
      rw [look'] at hbeyond
      exact absurd (Cache.entry?_put_ttl put).1 (Nat.not_lt.2 hbeyond)
  | unkept look miss asked look' put =>
    apply Relays.of_miss look miss asked
    · intro hshown
      have hend := hshown _ rfl
      rw [look'] at hend
      exact absurd (Cache.put?_ttl_eq_none put) (Nat.not_le.2 hend)
    · intro v _ _
      rfl

end Shelf

/-- Whatever configuration was loaded, its seconds fit into 64 bits, and behind its shelf each reading gives what is
kept and good or else what the backend answers, but for good answers that are to be kept until after the clock
ends. -/
theorem loaded_reading_relays {n m : Type → Type} [Monad n] [Monad m] {τ σ : Type} [Stateful n τ] [Stateful m σ]
    {disk : Disk n} {path : String} {x y : τ} {config : Config}
    (hload : (Config.load disk path).exec x = (.ok config, y)) (b : Backend m) (clock : m Ticks) (shelf : Shelf)
    (s : σ) :
    config.cache.Fits ∧
    Shelf.Relays clock config.cache.currenciesTicks Shelf.currenciesKey b.currencies shelf.currencies s
      ((b.shelved clock config.cache).currencies.exec (shelf, s)).1 ∧
    ∀ priceId, Shelf.Relays clock config.cache.amountsTicks priceId (b.history priceId) shelf.histories s
      (((b.shelved clock config.cache).history priceId).exec (shelf, s)).1 := by
  refine ⟨Config.load_fits hload, ?_, ?_⟩
  · simp only [Backend.shelved, Shelf.exec_onCurrencies]
    exact (Shelf.readThrough_reading clock _ _ b.currencies shelf.currencies s).relays
  · intro priceId
    simp only [Backend.shelved, Shelf.exec_onHistories]
    exact (Shelf.readThrough_reading clock _ _ (b.history priceId) shelf.histories s).relays

theorem Config.load_tree {m : Type → Type} [Monad m] {σ : Type} [Stateful m σ] {tree : FileTree} {path text : String}
    {config : Config} (hread : tree.read path = .ok text) (hdecode : Yaml.decode decode text = .ok config) (s : σ) :
    (load (FileTree.disk (m := m)) path).exec (tree, s) = (.ok config, tree, s) := by
  have hdisk : exec ((FileTree.disk (m := m)).read path) (tree, s) = (.ok text, tree, s) := by
    have hget : (get : StateT FileTree m FileTree) tree = pure (tree, tree) := rfl
    simp [FileTree.disk, Stateful.exec_stateT, StateT.run, hget, hread]
  simp only [load, Act.exec_bind, Act.exec_liftM, Act.exec_ofExcept, hdisk, hdecode, Except.mapError]

/-- With a configuration that keeps answers for a minute, the currencies of the backend come through. -/
theorem loaded_reading_relays_example :
    let text := "api:\n  base_url: http://localhost\ncache:\n  currencies_ttl_secs: 60\n"
    let tree := FileTree.directory [("config.yaml", .file text)]
    let b := Store.backend (m := StateM Ticks)
    ∃ config, (Config.load (FileTree.disk (m := StateM Ticks)) "config.yaml").exec (tree, 0) = (.ok config, tree, 0) ∧
      ((b.shelved Store.ticking config.cache).currencies.exec (Shelf.empty, Store.sample, 0)).1 =
        .ok Store.sample.currencies := by
  intro text tree b
  have hdecode : Yaml.decode Config.decode text = .ok ⟨⟨"http://localhost", none⟩, ⟨60, 30⟩⟩ := by decide +kernel
  have hread : tree.read "config.yaml" = .ok text := by decide +kernel
  have hload := Config.load_tree (m := StateM Ticks) hread hdecode 0
  refine ⟨_, hload, ?_⟩
  obtain ⟨-, hcurrencies, -⟩ := loaded_reading_relays hload b Store.ticking Shelf.empty (Store.sample, 0)
  exact hcurrencies.told _ _ rfl rfl fun _ _ => show 1 + 60000 < clockEnd by decide

/-- The longest time to keep can be loaded, and then the currencies that the backend lists are lost: the reading
halts. -/
theorem loaded_reading_loses_answer :
    let text := "api:\n  base_url: http://localhost\ncache:\n  currencies_ttl_secs: 18446744073709551615\n"
    let tree := FileTree.directory [("config.yaml", .file text)]
    let b := Store.backend (m := StateM Ticks)
    ∃ config, (Config.load (FileTree.disk (m := StateM Ticks)) "config.yaml").exec (tree, 0) = (.ok config, tree, 0) ∧
      (b.currencies.exec (Store.sample, 0)).1 = .ok Store.sample.currencies ∧
      ((b.shelved Store.ticking config.cache).currencies.exec (Shelf.empty, Store.sample, 0)).1 = .error .halt := by
  intro text tree b
  have hdecode : Yaml.decode Config.decode text =
      .ok ⟨⟨"http://localhost", none⟩, ⟨18446744073709551615, 30⟩⟩ := by decide +kernel
  have hread : tree.read "config.yaml" = .ok text := by decide +kernel
  have hload := Config.load_tree (m := StateM Ticks) hread hdecode 0
  exact ⟨_, hload, rfl, rfl⟩

end Tariff
