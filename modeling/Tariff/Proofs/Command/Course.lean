import Mathlib
import Tariff.Command.Price
import Tariff.Proofs.Action.Logic
/-
  Tariff.Proofs.Command.Course — how adding a version can go.

  The command stops at the first of its steps that does: a blank price, a reading that fails, an
  outcome that is refused, not shown or not confirmed, an append that fails. Only past all of
  these is something appended, and what follows then only reads. `Adding` has a case for each of
  these ends, with all that is known there, and `addVersion_course` says that there are no others.
-/

namespace Tariff.Command

variable {m : Type → Type} [Monad m] {σ : Type} [Stateful m σ]

/-! ## The steps -/

/-- Deciding only shows a page. -/
theorem exec_decide (color : Bool) (p : Proposal) (currencies : List Currency) (history : History)
    (now : Instant) (pages : List String) (s : σ) :
    (decide (m := m) color p currencies history now).exec (pages, s) =
      match View.outcomePage? color (p.validate currencies history now) p currencies history with
      | none => (.error .halt, pages, s)
      | some page =>
        ((p.validate currencies history now).mapError (fun rs => .fault (.rejected rs.length)),
          pages ++ [page], s) := by
  simp only [decide, Act.exec_bind, Act.exec_ofOption]
  cases View.outcomePage? color (p.validate currencies history now) p currencies history <;> simp

/-- What appending stops for, seen from the command. -/
def notAdded : Stop → Stop
  | .fault why => .fault (.notAdded why)
  | .halt => .halt

theorem exec_append (b : Backend m) (priceId : String) (new : NewVersion) (s : σ) :
    (append b priceId new).exec s =
      (((b.append priceId new).exec s).1.mapError notAdded, ((b.append priceId new).exec s).2) :=
  Act.exec_adapt _ _ _

/-- What follows an append: the version is shown, and the history as it is now. -/
def announce (b : Backend m) (color : Bool) (priceId : String) (currencies : List Currency)
    (now : Instant) (version : Version) : Console m Unit := do
  let line ← Act.ofOption (createdLine? currencies version)
  Console.say (Tone.success.paint color line)
  let renewed ← Console.perform (b.history priceId)
  sayHistory color priceId renewed currencies now

/-- What follows once a decision is confirmed. -/
def submit (b : Backend m) (color : Bool) (priceId : String) (currencies : List Currency) (now : Instant)
    (a : Acceptance) : Console m Unit := do
  let version ← Console.perform (append b priceId a.request)
  announce b color priceId currencies now version

/-- What follows once a price is named. -/
def consider (b : Backend m) (color : Bool) (priceId : String) (p : Proposal) (confirmed : Bool)
    (now : Instant) : Console m Unit := do
  let (h, cs) ← Console.perform (survey b priceId)
  let acceptance ← decide color p cs h now
  Console.say (Tone.subtle.paint color versioningNotice)
  if !confirmed then
    throw (.fault .unconfirmed)
  submit b color priceId cs now acceptance

theorem addVersion_eq (b : Backend m) (color : Bool) (priceId : String) (p : Proposal) (confirmed : Bool)
    (now : Instant) : addVersion b color priceId p confirmed now = (do
      if (Text.trim priceId).isEmpty then
        throw (.fault .missingPrice)
      consider b color priceId p confirmed now) := rfl

/-! ## What they keep -/

section
variable {I : σ → Prop} {b : Backend m}

/-- Whichever reading is done first, a survey keeps what both readings keep, and gives what they give. -/
theorem survey_ensures {priceId : String} {H : History → Prop} {C : List Currency → Prop}
    (hh : ∀ s, I s → (b.history priceId).Ensures s fun r t => I t ∧ ∀ h, r = .ok h → H h)
    (hc : ∀ s, I s → b.currencies.Ensures s fun r t => I t ∧ ∀ cs, r = .ok cs → C cs) {s : σ} (hs : I s) :
    (survey b priceId).Ensures s fun r t => I t ∧ ∀ x, r = .ok x → H x.1 ∧ C x.2 := by
  -- both readings have succeeded
  have both {h : History} {cs : List Currency} (hh : H h) (hc : C cs) {t : σ} (ht : I t) :
      Act.Ensures (pure (h, cs) : Act m (History × List Currency)) t fun r t =>
        I t ∧ ∀ x, r = .ok x → H x.1 ∧ C x.2 := by
    refine Act.ensures_of_exec (Act.exec_pure _ _) ⟨ht, fun x hx => ?_⟩
    cases hx
    exact ⟨hh, hc⟩
  unfold survey
  cases b.lead with
  | history =>
    refine (hh s hs).bind (fun h t ht => ?_) (fun e t ht => ⟨ht.1, by simp⟩)
    exact (hc t ht.1).bind (fun cs u hu => both (ht.2 h rfl) (hu.2 cs rfl) hu.1) (fun e u hu => ⟨hu.1, by simp⟩)
  | currencies =>
    refine (hc s hs).bind (fun cs t ht => ?_) (fun e t ht => ⟨ht.1, by simp⟩)
    exact (hh t ht.1).bind (fun h u hu => both (hu.2 h rfl) (ht.2 cs rfl) hu.1) (fun e u hu => ⟨hu.1, by simp⟩)

theorem survey_keeps {priceId : String} (hh : (b.history priceId).Keeps I) (hc : b.currencies.Keeps I) :
    (survey b priceId).Keeps I := fun _ hs =>
  (survey_ensures (H := fun _ => True) (C := fun _ => True) (fun s hs => ⟨hh s hs, fun _ _ => trivial⟩)
    (fun s hs => ⟨hc s hs, fun _ _ => trivial⟩) hs).1

theorem sayHistory_keeps (color : Bool) (priceId : String) (history : History) (currencies : List Currency)
    (now : Instant) : (sayHistory (m := m) color priceId history currencies now).Keeps fun s => I s.2 :=
  (Act.Keeps.ofOption _).bind fun page => Console.keeps_say page

theorem showCurrencies_keeps (hc : b.currencies.Keeps I) (color : Bool) :
    (showCurrencies b color).Keeps fun s => I s.2 :=
  (Console.keeps_perform hc).bind fun _ => Console.keeps_say _

theorem showHistory_keeps {priceId : String} (hh : (b.history priceId).Keeps I) (hc : b.currencies.Keeps I)
    (color : Bool) (now : Instant) : (showHistory b color priceId now).Keeps fun s => I s.2 :=
  (Console.keeps_perform (survey_keeps hh hc)).bind fun _ => sayHistory_keeps _ _ _ _ _

/-- What follows an append keeps what reading the history keeps. -/
theorem announce_keeps {priceId : String} (hh : (b.history priceId).Keeps I) (color : Bool)
    (currencies : List Currency) (now : Instant) (version : Version) :
    (announce b color priceId currencies now version).Keeps fun s => I s.2 :=
  (Act.Keeps.ofOption _).bind fun _ => (Console.keeps_say _).bind fun _ =>
    (Console.keeps_perform hh).bind fun _ => sayHistory_keeps _ _ _ _ _

end

/-! ## The course -/

/-- How adding a version can end: the result and the state that is left. -/
inductive Adding (b : Backend m) (color : Bool) (priceId : String) (p : Proposal) (confirmed : Bool)
    (now : Instant) (s : σ) : Except Stop Unit → σ → Prop
  /-- No price is named, and nothing is asked. -/
  | unnamed (blank : Text.trim priceId = "") :
    Adding b color priceId p confirmed now s (.error (.fault .missingPrice)) s
  /-- The history or the currencies cannot be read. -/
  | unread {e : Stop} {t : σ} (named : Text.trim priceId ≠ "")
    (read : (survey b priceId).exec s = (.error e, t)) : Adding b color priceId p confirmed now s (.error e) t
  /-- The outcome cannot be shown, is a refusal, or is not confirmed. -/
  | refused {e : Stop} {t : σ} {h : History} {cs : List Currency} (named : Text.trim priceId ≠ "")
    (read : (survey b priceId).exec s = (.ok (h, cs), t))
    (why : View.outcomePage? color (p.validate cs h now) p cs h = none ∨
      (∃ rs, p.validate cs h now = .error rs) ∨ confirmed = false) :
    Adding b color priceId p confirmed now s (.error e) t
  /-- What was accepted cannot be appended. -/
  | unappended {e : Stop} {t u : σ} {h : History} {cs : List Currency} {a : Acceptance}
    (named : Text.trim priceId ≠ "") (read : (survey b priceId).exec s = (.ok (h, cs), t))
    (accepted : p.validate cs h now = .ok a) (yes : confirmed = true)
    (order : (b.append priceId a.request).exec t = (.error e, u)) :
    Adding b color priceId p confirmed now s (.error (notAdded e)) u
  /-- What was accepted is appended. -/
  | appended {t u : σ} {h : History} {cs : List Currency} {a : Acceptance} {v : Version} {pages : List String}
    (named : Text.trim priceId ≠ "") (read : (survey b priceId).exec s = (.ok (h, cs), t))
    (accepted : p.validate cs h now = .ok a) (yes : confirmed = true)
    (order : (b.append priceId a.request).exec t = (.ok v, u)) :
    Adding b color priceId p confirmed now s ((announce b color priceId cs now v).exec (pages, u)).1
      ((announce b color priceId cs now v).exec (pages, u)).2.2

theorem addVersion_course (b : Backend m) (color : Bool) (priceId : String) (p : Proposal) (confirmed : Bool)
    (now : Instant) (pages : List String) (s : σ) :
    Adding b color priceId p confirmed now s
      ((addVersion b color priceId p confirmed now).exec (pages, s)).1
      ((addVersion b color priceId p confirmed now).exec (pages, s)).2.2 := by
  rw [addVersion_eq]
  by_cases hb : (Text.trim priceId).isEmpty = true
  · simp only [hb, if_true, Act.exec_bind, Act.exec_throw]
    exact .unnamed (String.isEmpty_iff.1 hb)
  · have hn : Text.trim priceId ≠ "" := fun h => hb (String.isEmpty_iff.2 h)
    simp only [hb, Bool.false_eq_true, if_false, consider, Act.exec_bind, Console.exec_perform]
    rcases hs : (survey b priceId).exec s with ⟨e | ⟨h, cs⟩, t⟩
    · exact .unread hn hs
    · simp only [exec_decide]
      cases hp : View.outcomePage? color (p.validate cs h now) p cs h with
      | none => exact .refused hn hs (.inl hp)
      | some page =>
        cases hv : p.validate cs h now with
        | error rs => exact .refused hn hs (.inr (.inl ⟨rs, hv⟩))
        | ok a =>
          cases confirmed with
          | false =>
            simp only [Except.mapError, Act.exec_bind, Console.exec_say, Bool.not_false, if_true, Act.exec_throw]
            exact .refused hn hs (.inr (.inr rfl))
          | true =>
            simp only [Except.mapError, Act.exec_bind, Console.exec_say, Bool.not_true, Bool.false_eq_true, if_false,
              submit, Console.exec_perform, exec_append]
            rcases ho : (b.append priceId a.request).exec t with ⟨e | v, u⟩
            · exact .unappended hn hs hv rfl ho
            · exact .appended hn hs hv rfl ho

end Tariff.Command
