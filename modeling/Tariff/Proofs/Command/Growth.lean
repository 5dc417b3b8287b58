import Mathlib
import Tariff.Proofs.Backend.Store
import Tariff.Proofs.Command.Course
import Tariff.Proofs.Command.Moves
import Tariff.Proofs.Proposal.Rules
/-
  Tariff.Proofs.Command.Growth — histories only ever grow at their end, and in time.

  In a run in which only decided proposals are appended, what an addition appends starts after
  every version of its currency that the price has then, not before the instant of the decision,
  and at a positive whole number of steps of its currency (`Version.Advances`). The decision may
  have been made on what a shelf kept; the shelf is faithful, so it was made on the books.

  - `Move.next_effect`: what one move may do to the books.
  - `AppendOnly.adds`: what is accepted, can be shown and is confirmed is appended, if no call fails.
  - `GatedRun.keeps_growth`: what a whole run has done to them.
  - `gated_runs_only_grow`: both, straight on the backend and behind a shelf.
-/

namespace Tariff

open Stateful (exec)

/-- The amount is a whole number of steps of the currency that the version names. -/
def Version.InSteps (v : Version) (currencies : List Currency) : Prop :=
  ∃ c, Currency.Named currencies v.currency c ∧ ∃ k : ℤ, v.amount.value = k * c.amountStep.value

/-- Appended to a price at an instant, the version goes past all that the price has. -/
structure Version.Advances (v : Version) (d : Books) (priceId : String) (now : Instant) : Prop where
  after_all : ∀ w ∈ d.history priceId, w.isIn v.currency = true → w.effectiveFrom < v.effectiveFrom
  not_past : now ≤ v.effectiveFrom
  positive : 0 < v.amount.value
  in_steps : v.InSteps d.currencies
  open_ended : v.effectiveTo = none

/-- What is accepted on the books goes past them, if the codes of currencies are ASCII: the code
that is submitted is matched by what the code that was typed is matched by. -/
theorem Version.advances_of_accepted {p : Proposal} {d : Books} {priceId : String} {now : Instant}
    {a : Acceptance} {v : Version} (hascii : ∀ c ∈ d.currencies, Text.IsAscii c.code)
    (hv : p.validate d.currencies (d.history priceId) now = .ok a) (hf : v.Fulfils a.request) :
    v.Advances d priceId now := by
  obtain ⟨c, amount, start, hk, rfl⟩ := Proposal.validate_eq_ok_iff.1 hv
  have hcode : v.currency = Text.upper (Text.trim c.code) := hf.currency
  have hamount : v.amount = amount := hf.amount
  have hstart : v.effectiveFrom = start := hf.start
  have hc := hascii c hk.named.mem
  refine ⟨fun w hw hin => ?_, hstart ▸ hk.not_past, hamount ▸ hk.positive, ?_, hf.open_ended⟩
  · rw [hstart]
    rw [hcode, Version.isIn_congr rfl (Text.codeKey_upper_trim hc)] at hin
    exact hk.after_all w hw hin
  · refine ⟨c, hcode ▸ hk.named.submitted hc, ?_⟩
    rw [hamount]
    exact hk.precise.multiple (Nat.min_le_right _ _)

/-! ## One move -/

/-- What a gated move may do to the books: append what was accepted on them and confirmed. -/
def Move.Effect (mv : Move) (d d' : Books) : Prop :=
  d' = d ∨ ∃ priceId p now a v, mv = .add priceId p true now ∧
    p.validate d.currencies (d.history priceId) now = .ok a ∧ v.Fulfils a.request ∧
    v.Advances d priceId now ∧ d' = d.append priceId v

variable {m : Type → Type} [Monad m] {σ : Type} [Stateful m σ] {b : Backend m} {keeps : σ → Books → Prop}

/-- A survey that succeeds tells what the books say. -/
theorem AppendOnly.survey (hb : AppendOnly b keeps) {s : σ} {d : Books} (priceId : String) (hs : keeps s d) :
    (Command.survey b priceId).Ensures s fun r t =>
      keeps t d ∧ ∀ x, r = .ok x → x = (d.history priceId, d.currencies) :=
  (Command.survey_ensures (I := fun s => keeps s d) (fun _ => hb.history priceId) (fun _ => hb.currencies) hs).mono
    fun _ _ ht => ⟨ht.1, fun x hx => Prod.ext (ht.2 x hx).1 (ht.2 x hx).2⟩

theorem AppendOnly.currencies_keeps (hb : AppendOnly b keeps) (d : Books) :
    b.currencies.Keeps fun s => keeps s d := fun _ hs => (hb.currencies hs).1

theorem AppendOnly.history_keeps (hb : AppendOnly b keeps) (priceId : String) (d : Books) :
    (b.history priceId).Keeps fun s => keeps s d := fun _ hs => (hb.history priceId hs).1

/-- Adding a version leaves the books, or appends what was accepted on them. -/
theorem AppendOnly.adding (hb : AppendOnly b keeps) {color : Bool} {priceId : String} {p : Proposal}
    {confirmed : Bool} {now : Instant} {s t : σ} {r : Except Stop Unit} {d : Books} (hs : keeps s d)
    (hascii : ∀ c ∈ d.currencies, Text.IsAscii c.code)
    (h : Command.Adding b color priceId p confirmed now s r t) :
    ∃ d', keeps t d' ∧ (Move.add priceId p confirmed now).Effect d d' := by
  have hsurvey := hb.survey priceId hs
  unfold Act.Ensures at hsurvey
  cases h with
  | unnamed => exact ⟨d, hs, .inl rfl⟩
  | unread named read =>
    rw [read] at hsurvey
    exact ⟨d, hsurvey.1, .inl rfl⟩
  | refused named read why =>
    rw [read] at hsurvey
    exact ⟨d, hsurvey.1, .inl rfl⟩
  | @unappended e t u h cs a named read accepted yes order =>
    rw [read] at hsurvey
    have happend := hb.append priceId a.request hsurvey.1
    unfold Act.Ensures at happend
    rw [order] at happend
    exact ⟨d, happend, .inl rfl⟩
  | @appended t u h cs a v pages named read accepted yes order =>
    rw [read] at hsurvey
    obtain ⟨ht, hread⟩ := hsurvey
    cases hread _ rfl
    have happend := hb.append priceId a.request ht
    unfold Act.Ensures at happend
    rw [order] at happend
    obtain ⟨w, hw, hu⟩ := happend
    refine ⟨d.append priceId w, ?_, .inr ⟨priceId, p, now, a, w, by rw [yes], accepted, hw, ?_, rfl⟩⟩
    · exact Command.announce_keeps (I := fun s => keeps s (d.append priceId w)) (hb.history_keeps priceId _)
        color d.currencies now v (pages, u) hu
    · exact Version.advances_of_accepted hascii accepted hw

/-- What is accepted on the books, can be shown and is confirmed is appended, if no call fails. -/
theorem AppendOnly.adds (hb : AppendOnly b keeps) {color : Bool} {priceId : String} {p : Proposal} {now : Instant}
    {s : σ} {d : Books} {a : Acceptance} (hs : keeps s d) (hnamed : Text.trim priceId ≠ "")
    (haccepted : p.validate d.currencies (d.history priceId) now = .ok a)
    (hpage : (View.outcomePage? color (.ok a) p d.currencies (d.history priceId)).isSome = true)
    (hread : ((Command.survey b priceId).exec s).1.isOk = true)
    (horder : ((b.append priceId a.request).exec ((Command.survey b priceId).exec s).2).1.isOk = true) :
    ∃ v, keeps ((Move.add priceId p true now).next b color s) (d.append priceId v) := by
  have hcourse := Command.addVersion_course b color priceId p true now [] s
  have hsurvey := hb.survey priceId hs
  unfold Act.Ensures at hsurvey
  simp only [Move.next, Move.perform, Act.exec_bind_pure]
  generalize (Command.addVersion b color priceId p true now).exec ([], s) = r at hcourse ⊢
  obtain ⟨result, pages', t'⟩ := r
  cases hcourse with
  | unnamed blank => exact absurd blank hnamed
  | unread _ read =>
    rw [read] at hread
    cases hread
  | refused _ read why =>
    rw [read] at hsurvey
    cases hsurvey.2 _ rfl
    rw [haccepted] at why
    rcases why with hnone | ⟨rs, hrs⟩ | hno
    · rw [hnone] at hpage
      cases hpage
    · cases hrs
    · cases hno
  | unappended _ read accepted _ order =>
    rw [read] at hsurvey horder
    cases hsurvey.2 _ rfl
    cases haccepted.symm.trans accepted
    rw [order] at horder
    cases horder
  | @appended t u h cs a' v pages _ read accepted _ order =>
    rw [read] at hsurvey
    cases hsurvey.2 _ rfl
    have happend := hb.append priceId a'.request hsurvey.1
    unfold Act.Ensures at happend
    rw [order] at happend
    obtain ⟨w, -, hu⟩ := happend
    exact ⟨w, Command.announce_keeps (I := fun s => keeps s (d.append priceId w)) (hb.history_keeps priceId _)
      color d.currencies now v (pages, u) hu⟩

/-- A gated move keeps to its effect. -/
theorem Move.next_effect (hb : AppendOnly b keeps) (color : Bool) {s : σ} {d : Books} (hs : keeps s d)
    (hascii : ∀ c ∈ d.currencies, Text.IsAscii c.code) (mv : Move) (hg : mv.Gated) :
    ∃ d', keeps (mv.next b color s) d' ∧ mv.Effect d d' := by
  cases mv with
  | currencies =>
    refine ⟨d, ?_, .inl rfl⟩
    simp only [next, perform, Act.exec_bind_pure, Console.exec_perform]
    exact (hb.currencies hs).1
  | history priceId =>
    refine ⟨d, ?_, .inl rfl⟩
    simp only [next, perform, Act.exec_bind_pure, Console.exec_perform]
    exact (hb.history priceId hs).1
  | append priceId new => exact hg.elim
  | showCurrencies =>
    refine ⟨d, ?_, .inl rfl⟩
    simp only [next, perform, Act.exec_bind_pure]
    exact Command.showCurrencies_keeps (hb.currencies_keeps d) color ([], s) hs
  | showHistory priceId now =>
    refine ⟨d, ?_, .inl rfl⟩
    simp only [next, perform, Act.exec_bind_pure]
    exact Command.showHistory_keeps (hb.history_keeps priceId d) (hb.currencies_keeps d) color now ([], s) hs
  | add priceId p confirmed now =>
    simp only [next, perform, Act.exec_bind_pure]
    exact hb.adding hs hascii (Command.addVersion_course b color priceId p confirmed now [] s)

/-! ## Runs -/

/-- The states that gated moves reach. Between moves whatever `idle` allows may change: time
passes, and calls begin or cease to fail. -/
inductive GatedRun (b : Backend m) (color : Bool) (idle : σ → σ → Prop) (s : σ) : σ → Prop
  | start : GatedRun b color idle s s
  | move {t : σ} (mv : Move) : GatedRun b color idle s t → mv.Gated →
      GatedRun b color idle s (mv.next b color t)
  | idle {t u : σ} : GatedRun b color idle s t → idle t u → GatedRun b color idle s u

/-- The history has more versions, all at its end: each after those of its currency before it, and
at a positive whole number of steps of it. -/
def History.GrownBy (h rows h' : History) (currencies : List Currency) : Prop :=
  h' = h ++ rows ∧
    (∀ v ∈ rows, v.effectiveTo = none ∧ 0 < v.amount.value ∧ v.InSteps currencies) ∧
    (∀ w ∈ h, ∀ v ∈ rows, w.isIn v.currency = true → w.effectiveFrom < v.effectiveFrom) ∧
    rows.Pairwise fun w v => w.isIn v.currency = true → w.effectiveFrom < v.effectiveFrom

/-- The currencies are the same, and every history has grown at its end. -/
structure Books.Grown (d d' : Books) : Prop where
  currencies : d'.currencies = d.currencies
  history : ∀ priceId, ∃ rows, (d.history priceId).GrownBy rows (d'.history priceId) d.currencies

theorem Books.grown_refl (d : Books) : d.Grown d :=
  ⟨rfl, fun priceId => ⟨[], by simp [History.GrownBy]⟩⟩

/-- What an effect appends comes after what has grown. -/
theorem Books.Grown.effect {d₀ d d' : Books} (h : d₀.Grown d) {mv : Move} (he : mv.Effect d d') :
    d₀.Grown d' := by
  rcases he with rfl | ⟨priceId, p, now, a, v, -, -, -, hv, rfl⟩
  · exact h
  · refine ⟨h.currencies, fun q => ?_⟩
    obtain ⟨rows, heq, hrows, hold, hpair⟩ := h.history q
    by_cases hq : q = priceId
    · subst hq
      have hafter := hv.after_all
      rw [heq] at hafter
      have hlast : ∀ w ∈ rows, w.isIn v.currency = true → w.effectiveFrom < v.effectiveFrom :=
        fun w hw => hafter w (List.mem_append_right _ hw)
      refine ⟨rows ++ [v], ?_, ?_, ?_, ?_⟩
      · rw [Books.append_history_same, heq, List.append_assoc]
      · intro w hw
        rcases List.mem_append.1 hw with hw | hw
        · exact hrows w hw
        · cases List.mem_singleton.1 hw
          exact ⟨hv.open_ended, hv.positive, h.currencies ▸ hv.in_steps⟩
      · intro w hw u hu
        rcases List.mem_append.1 hu with hu | hu
        · exact hold w hw u hu
        · cases List.mem_singleton.1 hu
          exact hafter w (List.mem_append_left _ hw)
      · refine List.pairwise_append.2 ⟨hpair, List.pairwise_singleton _ _, fun w hw u hu => ?_⟩
        cases List.mem_singleton.1 hu
        exact hlast w hw
    · exact ⟨rows, by rw [d.append_history_other v hq]; exact ⟨heq, hrows, hold, hpair⟩⟩

/-- In a run the books of a backend only grow. -/
theorem GatedRun.keeps_growth (hb : AppendOnly b keeps) {color : Bool} {idle : σ → σ → Prop}
    (hidle : ∀ t u d, idle t u → keeps t d → keeps u d) {s t : σ} {d₀ : Books} (hs : keeps s d₀)
    (hascii : ∀ c ∈ d₀.currencies, Text.IsAscii c.code) (h : GatedRun b color idle s t) :
    ∃ d, keeps t d ∧ d₀.Grown d := by
  induction h with
  | start => exact ⟨d₀, hs, d₀.grown_refl⟩
  | move mv _ hg ih =>
    obtain ⟨d, ht, hd⟩ := ih
    obtain ⟨d', ht', he⟩ := mv.next_effect hb color ht (hd.currencies ▸ hascii) hg
    exact ⟨d', ht', hd.effect he⟩
  | idle _ hi ih =>
    obtain ⟨d, ht, hd⟩ := ih
    exact ⟨d, hidle _ _ _ hi ht, hd⟩

/-- Whatever state gated moves reach, the books have only grown, and one move more keeps to its
effect on the books as they are then. -/
def OnlyGrows (b : Backend m) (color : Bool) (books : σ → Books) (idle : σ → σ → Prop) (s : σ) : Prop :=
  ∀ t, GatedRun b color idle s t →
    (books s).Grown (books t) ∧ ∀ mv : Move, mv.Gated → mv.Effect (books t) (books (mv.next b color t))

/-- However a run of gated moves goes on a backend that appends to its books, and whatever of its
calls fail, the books only grow, by what was accepted on them and goes past them. Behind a shelf it
is the same, for any clock and any times to keep. -/
theorem gated_runs_only_grow (b : Backend m) (books : σ → Books)
    (hb : AppendOnly b fun s d => books s = d) (clock : m Ticks) (hclock : ∀ s, books (exec clock s).2 = books s)
    (config : CacheConfig) (color : Bool) (s : σ) (hascii : ∀ c ∈ (books s).currencies, Text.IsAscii c.code) :
    OnlyGrows b color books (fun t u => books u = books t) s ∧
      OnlyGrows (b.shelved clock config) color (fun t => books t.2)
        (fun t u => u.1 = t.1 ∧ books u.2 = books t.2) (Shelf.empty, s) := by
  constructor
  · intro t ht
    obtain ⟨d, rfl, hgrown⟩ := ht.keeps_growth hb (fun t u d hi hd => hi.trans hd) rfl hascii
    refine ⟨hgrown, fun mv hg => ?_⟩
    obtain ⟨d', hd', he⟩ := mv.next_effect hb color rfl (hgrown.currencies ▸ hascii) hg
    exact hd' ▸ he
  · intro t ht
    have hshelved := hb.shelved (fun s d hd => (hclock s).trans hd) config
    obtain ⟨d, hd, hgrown⟩ := ht.keeps_growth hshelved
      (fun t u d (hi : u.1 = t.1 ∧ books u.2 = books t.2) hd => ⟨hi.2.trans hd.1, hi.1 ▸ hd.2⟩)
      ⟨rfl, Shelf.faithful_empty _⟩ hascii
    obtain ⟨rfl, hf⟩ := id hd
    refine ⟨hgrown, fun mv hg => ?_⟩
    obtain ⟨d', hd', he⟩ := mv.next_effect hshelved color hd (hgrown.currencies ▸ hascii) hg
    obtain ⟨rfl, -⟩ := hd'
    exact he

/-- What an addition appends to the books of a run goes past them. -/
theorem OnlyGrows.advances {color : Bool} {books : σ → Books} {idle : σ → σ → Prop} {s t : σ}
    (h : OnlyGrows b color books idle s) (ht : GatedRun b color idle s t) {priceId : String} {p : Proposal}
    {confirmed : Bool} {now : Instant}
    (hmore : ∃ v, books ((Move.add priceId p confirmed now).next b color t) = (books t).append priceId v) :
    ∃ v, v.Advances (books t) priceId now ∧
      books ((Move.add priceId p confirmed now).next b color t) = (books t).append priceId v := by
  obtain ⟨-, heffect⟩ := h t ht
  rcases heffect (.add priceId p confirmed now) trivial with hsame | ⟨_, _, _, _, v, heq, -, -, hv, hd⟩
  · obtain ⟨v, hv⟩ := hmore
    have hlength := congrArg (fun d => (d.history priceId).length) (hsame.symm.trans hv)
    simp at hlength
  · cases heq
    exact ⟨v, hv, hd⟩

namespace Store

def proposal : Proposal := ⟨" usd", "10", "2024-06-01"⟩

/-- The store behind a shelf. -/
def behindShelf : Backend (StateT Shelf (StateT Store (StateM Ticks))) := backend.shelved ticking ⟨5, 5⟩

/-- An addition to the price of the sample. -/
def grown : Store × Ticks :=
  (Move.add "price_1" proposal true Instant.epoch).next (m := StateT Store (StateM Ticks)) backend true (sample, 0)

/-- The sample, with its history on the shelf. -/
def listed : Shelf × Store × Ticks := (Move.history "price_1").next behindShelf true (Shelf.empty, sample, 0)

/-- The addition is decided on what the shelf has. -/
def shelvedGrown : Shelf × Store × Ticks :=
  (Move.add "price_1" proposal true Instant.epoch).next behindShelf true listed

end Store

open Store in
/-- So do the books of a store with one currency, by a clock that goes on at every look. An addition appends a
version that goes past the price's, and so it does when it is decided on a history from the shelf. -/
theorem gated_runs_only_grow_in_store :
    (AppendOnly (backend (m := StateM Ticks)) fun s d => s.1.books = d) ∧
      (∀ s : Store × Ticks, (exec ticking s).2.1.books = s.1.books) ∧
      (∀ c ∈ sample.books.currencies, Text.IsAscii c.code) ∧
      OnlyGrows (backend (m := StateM Ticks)) true (fun t => t.1.books)
        (fun t u => u.1.books = t.1.books) (sample, 0) ∧
      OnlyGrows behindShelf true (fun t => t.2.1.books)
        (fun t u => u.1 = t.1 ∧ u.2.1.books = t.2.1.books) (Shelf.empty, sample, 0) ∧
      (∃ v, v.Advances sample.books "price_1" Instant.epoch ∧
        grown.1.books = sample.books.append "price_1" v) ∧
      ∃ v, v.Advances sample.books "price_1" Instant.epoch ∧
        shelvedGrown.2.1.books = sample.books.append "price_1" v := by
  have hascii : ∀ c ∈ sample.books.currencies, Text.IsAscii c.code := by
    simp [sample, ofData, books, Text.IsAscii]
  obtain ⟨hdirect, hshelved⟩ := gated_runs_only_grow backend (fun t => t.1.books) appendOnly ticking (fun _ => rfl)
    ⟨5, 5⟩ true (sample, 0) hascii
  have hpage : ((proposal.validate sample.books.currencies (sample.books.history "price_1") Instant.epoch).toOption.any
      fun a => (View.outcomePage? true (.ok a) proposal sample.books.currencies
        (sample.books.history "price_1")).isSome) = true := by decide +kernel
  cases ha : proposal.validate sample.books.currencies (sample.books.history "price_1") Instant.epoch with
  | error rs => simp [ha, Except.toOption] at hpage
  | ok a =>
    have hshown := by simpa [ha, Except.toOption] using hpage
    have hbehind : AppendOnly behindShelf fun s d => s.2.1.books = d ∧ s.1.Faithful d :=
      appendOnly.shelved (fun _ _ hd => hd) ⟨5, 5⟩
    have hlisted : listed.2.1.books = sample.books ∧ listed.1.Faithful sample.books :=
      hbehind.history_keeps "price_1" sample.books (Shelf.empty, sample, 0) ⟨rfl, Shelf.faithful_empty _⟩
    refine ⟨appendOnly, fun _ => rfl, hascii, hdirect, hshelved, hdirect.advances .start ?_, ?_⟩
    · exact appendOnly.adds rfl (by decide) ha hshown rfl rfl
    · refine hshelved.advances (.move (.history "price_1") .start trivial) ?_
      obtain ⟨v, hv, -⟩ := hbehind.adds hlisted (by decide) ha hshown rfl rfl
      exact ⟨v, hv⟩

end Tariff
