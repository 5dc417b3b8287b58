import Mathlib
import Tariff.Files.Tree
import Tariff.Proofs.Cache.Entries
/-
  Tariff.Proofs.Files.Kinds — what is at the end of names, and what changes it.

  A tree is looked at through names from the working directory on: at their end is nothing, a directory or
  a file with its content (`kindAt?`). What stands above something is a directory (`directory_of_below`).
  Putting changes what is at the end of its names and below, and nothing else (`kindAt?_put_append`,
  `kindAt?_put_other`), as long as there is a directory to put into (`HasRoom`).
-/

namespace Tariff.FileTree

/-! ## What is at the end of names -/

/-- What a node is, apart from what lies below it. -/
inductive Kind where
  | file (content : String)
  | directory
  deriving DecidableEq, Repr

def kind : FileTree → Kind
  | .file content => .file content
  | .directory _ => .directory

def kindAt? (t : FileTree) (names : List String) : Option Kind := (t.nodeAt? names).map kind

@[simp] theorem kindAt?_nil (t : FileTree) : t.kindAt? [] = some t.kind := rfl

theorem kindAt?_cons (t : FileTree) (name : String) (names : List String) :
    t.kindAt? (name :: names) = (t.child? name).bind (·.kindAt? names) := by
  rw [kindAt?, nodeAt?]
  cases t.child? name <;> rfl

/-- Only a directory has something in it. -/
theorem kind_of_child? {t c : FileTree} {name : String} (h : t.child? name = some c) : t.kind = .directory := by
  cases t with
  | file content => cases h
  | directory entries => rfl

/-- There is nothing below a file, and nothing below nothing. -/
theorem directory_of_below {t : FileTree} {names below : List String} (hne : below ≠ [])
    (h : t.kindAt? (names ++ below) ≠ none) : t.kindAt? names = some .directory := by
  induction names generalizing t with
  | nil =>
    obtain ⟨name, rest, rfl⟩ := List.exists_cons_of_ne_nil hne
    rw [List.nil_append, kindAt?_cons] at h
    obtain ⟨c, hc⟩ : ∃ c, t.child? name = some c := Option.ne_none_iff_exists'.1 fun hnone => h (by simp [hnone])
    rw [kindAt?_nil, kind_of_child? hc]
  | cons name names ih =>
    rw [List.cons_append, kindAt?_cons] at h
    rw [kindAt?_cons]
    cases hc : t.child? name with
    | none => simp [hc] at h
    | some c =>
      rw [hc, Option.bind_some] at h
      exact ih h

/-! ## Putting -/

/-- There is a directory that holds, or could hold, what is at the end of the names. -/
def HasRoom (t : FileTree) (names : List String) : Prop :=
  names ≠ [] → t.kindAt? names.dropLast = some .directory

theorem HasRoom.directory {t : FileTree} {name : String} {names : List String} (h : t.HasRoom (name :: names)) :
    ∃ entries, t = .directory entries := by
  have hparent := h (by simp)
  cases t with
  | directory entries => exact ⟨entries, rfl⟩
  | file content => cases names <;> simp [List.dropLast, kindAt?_cons, child?, kind] at hparent

/-- Below a directory that is passed on the way there is room too. -/
theorem HasRoom.child {t : FileTree} {name : String} {names : List String} (h : t.HasRoom (name :: names)) :
    (names = [] ∨ ∃ c, t.child? name = some c) ∧ ∀ c, t.child? name = some c → c.HasRoom names := by
  cases names with
  | nil => exact ⟨.inl rfl, fun c _ hne => absurd rfl hne⟩
  | cons next names =>
    have hparent := h (by simp)
    rw [List.dropLast_cons_of_ne_nil (by simp), kindAt?_cons] at hparent
    obtain ⟨c, hc, hkind⟩ := Option.bind_eq_some_iff.1 hparent
    refine ⟨.inr ⟨c, hc⟩, fun c' hc' _ => ?_⟩
    rw [hc] at hc'
    cases hc'
    exact hkind

/-- Replacing what stands under a name changes what is found there, if something is. -/
theorem lookup_replaced (entries : List (String × FileTree)) (name other : String) (node : FileTree) :
    (entries.map fun e => if e.1 == name then (name, node) else e).lookup other =
      if other = name then (entries.lookup name).map fun _ => node else entries.lookup other := by
  induction entries with
  | nil => simp
  | cons e entries ih =>
    obtain ⟨k, v⟩ := e
    rw [List.map_cons]
    by_cases hk : k = name
    · subst hk
      rw [if_pos (beq_self_eq_true k), lookup_cons_eq, lookup_cons_eq, lookup_cons_eq, ih]
      by_cases ho : other = k <;> simp [ho]
    · rw [if_neg (by simpa using hk), lookup_cons_eq, lookup_cons_eq, lookup_cons_eq, ih, if_neg (Ne.symm hk)]
      by_cases hok : other = k <;> simp [hok, hk]

/-- Putting below a name changes what this name stands for and no other. -/
theorem child?_put (entries : List (String × FileTree)) (name : String) (names : List String) (node : FileTree)
    (other : String) :
    ((directory entries).put (name :: names) node).child? other =
      if other = name then some ((entries.lookup name).elim node (·.put names node)) else entries.lookup other := by
  cases hfound : entries.lookup name with
  | some child =>
    rw [put, hfound, child?, lookup_replaced, hfound]
    rfl
  | none =>
    rw [put, hfound, child?, List.lookup_append]
    by_cases ho : other = name
    · simp [ho, hfound]
    · simp [ho, lookup_cons_eq]

/-- What is put at the end of names is there, with what lies below it. -/
theorem kindAt?_put_append {t : FileTree} {names : List String} (h : t.HasRoom names) (node : FileTree)
    (below : List String) : (t.put names node).kindAt? (names ++ below) = node.kindAt? below := by
  induction names generalizing t with
  | nil => cases t <;> rfl
  | cons name names ih =>
    obtain ⟨entries, rfl⟩ := h.directory
    obtain ⟨hway, hrest⟩ := h.child
    rw [List.cons_append, kindAt?_cons, child?_put, if_pos rfl, Option.bind_some]
    cases hfound : entries.lookup name with
    | some child => exact ih (hrest child hfound)
    | none =>
      obtain rfl : names = [] := hway.resolve_right fun hc => by simp [child?, hfound] at hc
      rfl

/-- Elsewhere nothing changes. -/
theorem kindAt?_put_other {t : FileTree} {names other : List String} (h : t.HasRoom names) (node : FileTree)
    (hother : ¬ names <+: other) : (t.put names node).kindAt? other = t.kindAt? other := by
  induction names generalizing t other with
  | nil => exact absurd List.nil_prefix hother
  | cons name names ih =>
    obtain ⟨entries, rfl⟩ := h.directory
    obtain ⟨hway, hrest⟩ := h.child
    cases other with
    | nil =>
      rw [put]
      cases entries.lookup name <;> rfl
    | cons first other =>
      rw [kindAt?_cons, kindAt?_cons, child?_put]
      by_cases hfirst : first = name
      · subst hfirst
        have hbelow : ¬ names <+: other := fun hp => hother (List.cons_prefix_cons.2 ⟨rfl, hp⟩)
        rw [if_pos rfl, Option.bind_some, child?]
        cases hfound : entries.lookup first with
        | some child => exact ih (hrest child hfound) hbelow
        | none =>
          obtain rfl : names = [] := hway.resolve_right fun hc => by simp [child?, hfound] at hc
          exact absurd List.nil_prefix hbelow
      · rw [if_neg hfirst]
        rfl

end Tariff.FileTree
