import Mathlib
import Tariff.Proofs.Decode.Record
import Tariff.Proofs.Files.Kinds
/-
  Tariff.Proofs.Files.Changes — where paths lead, and what making directories and writing change.

  A path is followed from directory to directory, so it leads to a place that has room
  (`hasRoom_of_placeOf`), and it leads there as long as the directories stay (`placeOf_of_keepsDirectories`).

  - Making directories lets nothing disappear or change; only directories are new
    (`widened_makeDirectories`).
  - Writing changes the one place that the path leads to (`kindAt?_of_write`).
  - A path that never steps up leads to a file in a widened tree only if it did before
    (`isThere_of_widened`). One that steps up may have lacked the directory that it steps up from.
-/

namespace Tariff.FileTree

variable {t t' : FileTree} {path : String} {names : List String} {here there : Place} {name : String}

/-! ## Following a path -/

/-- What is at a place. -/
def kindOf? (t : FileTree) (place : Place) : Option Kind := (t.at? place).map kind

@[simp] theorem kindOf?_some (t : FileTree) (names : List String) : t.kindOf? (some names) = t.kindAt? names := rfl

@[simp] theorem kindOf?_none (t : FileTree) : t.kindOf? none = some .directory := rfl

/-- Where a step leads that is taken from a directory. -/
def stepFrom (here : Place) (name : String) : Except OsError Place :=
  if name == "." then .ok here
  else match here with
    | none => if name == ".." then .ok none else .error .notFound
    | some names =>
      if name == ".." then .ok (if names.isEmpty then none else some names.dropLast)
      else .ok (some (names ++ [name]))

theorem step_eq_ok_iff :
    t.step here name = .ok there ↔ t.kindOf? here = some .directory ∧ stepFrom here name = .ok there := by
  unfold step kindOf?
  cases t.at? here with
  | none => simp
  | some found =>
    cases found with
    | file content => simp [kind]
    | directory entries =>
      show stepFrom here name = .ok there ↔ _
      simp [kind]

/-- A place with room, if it is not outside. -/
def Rooted (t : FileTree) : Place → Prop
  | none => True
  | some names => t.HasRoom names

theorem rooted_of_step (hstep : t.step here name = .ok there) (h : t.Rooted here) : t.Rooted there := by
  obtain ⟨hdir, hstep⟩ := step_eq_ok_iff.1 hstep
  unfold stepFrom at hstep
  split at hstep
  · cases hstep
    exact h
  · cases here with
    | none =>
      simp only at hstep
      split at hstep
      · cases hstep
        trivial
      · cases hstep
    | some names =>
      simp only at hstep
      split at hstep
      · cases hstep
        by_cases hnil : names = []
        · simp [hnil, Rooted]
        · rw [if_neg (by simpa using hnil)]
          intro hne
          -- two directories up there is a directory, since something lies below it
          have hsplit : names.dropLast.dropLast ++ [names.dropLast.getLast hne, names.getLast hnil] = names := by
            show names.dropLast.dropLast ++ ([names.dropLast.getLast hne] ++ [names.getLast hnil]) = names
            rw [← List.append_assoc, List.dropLast_append_getLast, List.dropLast_append_getLast]
          have hthere : t.kindAt? (names.dropLast.dropLast ++ [names.dropLast.getLast hne, names.getLast hnil]) ≠ none := by
            rw [hsplit]
            rw [kindOf?_some] at hdir
            simp [hdir]
          exact directory_of_below (by simp) hthere
      · cases hstep
        intro _
        rw [List.dropLast_concat]
        exact hdir

theorem rooted_of_walk {steps : List String} (hwalk : steps.foldlM t.step here = .ok there) (h : t.Rooted here) :
    t.Rooted there := by
  induction steps generalizing here with
  | nil =>
    cases hwalk
    exact h
  | cons name steps ih =>
    rw [List.foldlM_cons] at hwalk
    obtain ⟨next, hstep, hwalk⟩ := exists_of_bind_eq_ok hwalk
    exact ih hwalk (rooted_of_step hstep h)

/-- Where a path begins. -/
def start (path : String) : Place := if Path.isAbsolute path then none else some []

/-- A path leads somewhere if it can be one, is not empty, and each step can be taken. -/
theorem placeOf_eq_ok_iff {place : Place} : t.placeOf path = .ok place ↔
    '\x00' ∉ path.toList ∧ path ≠ "" ∧ (Path.steps path).foldlM t.step (start path) = .ok place := by
  unfold placeOf start
  by_cases hzero : '\x00' ∈ path.toList
  · simp [hzero]
  · by_cases hempty : path = ""
    · simp [hempty]
    · simp [hzero, hempty]

theorem hasRoom_of_placeOf (h : t.placeOf path = .ok (some names)) : t.HasRoom names := by
  obtain ⟨-, -, hwalk⟩ := placeOf_eq_ok_iff.1 h
  have hstart : t.Rooted (start path) := by
    unfold start
    split
    · trivial
    · exact fun hne => absurd rfl hne
  exact rooted_of_walk hwalk hstart

/-- Every directory of the first tree is one of the second. -/
def KeepsDirectories (t t' : FileTree) : Prop :=
  ∀ names, t.kindAt? names = some .directory → t'.kindAt? names = some .directory

theorem walk_of_keepsDirectories {steps : List String} (h : t.KeepsDirectories t')
    (hwalk : steps.foldlM t.step here = .ok there) : steps.foldlM t'.step here = .ok there := by
  induction steps generalizing here with
  | nil => exact hwalk
  | cons name steps ih =>
    rw [List.foldlM_cons] at hwalk ⊢
    obtain ⟨next, hstep, hwalk⟩ := exists_of_bind_eq_ok hwalk
    obtain ⟨hdir, hfrom⟩ := step_eq_ok_iff.1 hstep
    have hdir' : t'.kindOf? here = some .directory := by
      cases here with
      | none => rfl
      | some names => exact h names hdir
    rw [step_eq_ok_iff.2 ⟨hdir', hfrom⟩]
    exact ih hwalk

/-- A path leads where it led, as long as the directories stay. -/
theorem placeOf_of_keepsDirectories {place : Place} (h : t.KeepsDirectories t') (hplace : t.placeOf path = .ok place) :
    t'.placeOf path = .ok place := by
  obtain ⟨hzero, hempty, hwalk⟩ := placeOf_eq_ok_iff.1 hplace
  exact placeOf_eq_ok_iff.2 ⟨hzero, hempty, walk_of_keepsDirectories h hwalk⟩

/-- There is something at a path that leads to something; with a slash at its end it must be a directory. -/
theorem isThere_iff : t.isThere path = true ↔ ∃ place found, t.placeOf path = .ok place ∧ t.kindOf? place = some found ∧
    (Path.endsInSlash path = true → found = .directory) := by
  unfold isThere find
  cases hplace : t.placeOf path with
  | error why => simp [bind, Except.bind, Except.isOk, Except.toBool]
  | ok place =>
    simp only [bind, Except.bind, Except.ok.injEq, kindOf?]
    cases hfound : t.at? place with
    | none => simp [Except.isOk, Except.toBool, hfound]
    | some found =>
      cases found with
      | file content =>
        cases hslash : Path.endsInSlash path <;>
          simp [hfound, kind, isDirectory, Except.isOk, Except.toBool]
      | directory entries => simp [hfound, kind, isDirectory, Except.isOk, Except.toBool]

/-- The file that a path leads to is read. -/
theorem read_of_kindAt? {content : String} (hplace : t.placeOf path = .ok (some names))
    (hkind : t.kindAt? names = some (.file content)) (hslash : Path.endsInSlash path = false) :
    t.read path = .ok content := by
  obtain ⟨found, hfound, hkind⟩ := Option.map_eq_some_iff.1 hkind
  cases found with
  | directory entries => cases hkind
  | file content' =>
    cases hkind
    have hat : t.at? (some names) = some (.file content) := hfound
    have hfind : t.find path = .ok (.file content) := by
      simp [find, hplace, hat, hslash, bind, Except.bind]
    simp [read, hfind, bind, Except.bind]

/-! ## Making directories -/

/-- The second tree is the first with more directories. -/
def Widened (t t' : FileTree) : Prop :=
  ∀ names, t'.kindAt? names = t.kindAt? names ∨ t.kindAt? names = none ∧ t'.kindAt? names = some .directory

theorem Widened.refl (t : FileTree) : t.Widened t := fun _ => .inl rfl

theorem Widened.trans {t'' : FileTree} (h : t.Widened t') (h' : t'.Widened t'') : t.Widened t'' := by
  intro names
  rcases h' names with hsame | ⟨hnone, hnew⟩
  · rw [hsame]
    exact h names
  · rcases h names with hsame | ⟨-, hdir⟩
    · exact .inr ⟨hsame ▸ hnone, hnew⟩
    · rw [hdir] at hnone
      cases hnone

/-- What was there stays. -/
theorem Widened.stays (h : t.Widened t') {found : Kind} (hfound : t.kindAt? names = some found) :
    t'.kindAt? names = some found := by
  rcases h names with hsame | ⟨hnone, -⟩
  · rw [hsame, hfound]
  · rw [hfound] at hnone
    cases hnone

theorem Widened.keepsDirectories (h : t.Widened t') : t.KeepsDirectories t' := fun _ => h.stays

/-- A file was there before. -/
theorem Widened.file (h : t.Widened t') {content : String} (hfile : t'.kindAt? names = some (.file content)) :
    t.kindAt? names = some (.file content) := by
  rcases h names with hsame | ⟨-, hdir⟩
  · rw [← hsame, hfile]
  · rw [hdir] at hfile
    cases hfile

theorem widened_makeDirectory (h : t.makeDirectory path = .ok t') : t.Widened t' := by
  obtain ⟨place, hplace, hmade⟩ := exists_of_bind_eq_ok h
  cases place with
  | none => cases hmade
  | some names =>
    cases hat : t.at? (some names) with
    | some found => simp [hat] at hmade
    | none =>
      simp only [hat, Except.ok.injEq] at hmade
      subst hmade
      have hroom := hasRoom_of_placeOf hplace
      have hnone : t.kindAt? names = none := by
        have hnode : t.nodeAt? names = none := hat
        rw [kindAt?, hnode]
        rfl
      intro other
      by_cases hbelow : names <+: other
      · obtain ⟨below, rfl⟩ := hbelow
        rw [kindAt?_put_append hroom]
        cases below with
        | nil =>
          rw [List.append_nil]
          exact .inr ⟨hnone, rfl⟩
        | cons name below =>
          left
          by_contra hne
          have hthere : t.kindAt? (names ++ name :: below) ≠ none := fun h => hne (by rw [h]; rfl)
          rw [directory_of_below (by simp) hthere] at hnone
          cases hnone
      · exact .inl (kindAt?_put_other hroom _ hbelow)

/-- However far it comes, making directories only adds directories. -/
theorem widened_makeDirectories (fuel : Nat) (t : FileTree) (path : String) :
    t.Widened (t.makeDirectories fuel path).2 := by
  induction fuel generalizing t path with
  | zero => exact .refl t
  | succ fuel ih =>
    rw [makeDirectories]
    split
    · exact .refl t
    · split
      · split
        · exact .refl t
        · rename_i parent _
          have hparent := ih t parent
          split
          · rename_i u hmade
            rw [hmade] at hparent
            dsimp only
            split
            · rename_i hlast
              exact hparent.trans (widened_makeDirectory hlast)
            · exact hparent
          · exact hparent
      · dsimp only
        split
        · rename_i hmade
          exact widened_makeDirectory hmade
        · exact .refl t

/-! ## Writing -/

/-- What is written is there, in a place that was no directory, and nothing else changes. -/
theorem kindAt?_of_write {content : String} (h : t.write path content = .ok t') :
    ∃ names, t.placeOf path = .ok (some names) ∧ Path.endsInSlash path = false ∧
      t.kindAt? names ≠ some .directory ∧
      ∀ other, t'.kindAt? other = if other = names then some (.file content) else t.kindAt? other := by
  obtain ⟨place, hplace, hwritten⟩ := exists_of_bind_eq_ok h
  cases place with
  | none => cases hwritten
  | some names =>
    have hnot : t.kindAt? names ≠ some .directory := by
      intro hdir
      obtain ⟨found, hfound, hkind⟩ := Option.map_eq_some_iff.1 hdir
      have hat : t.at? (some names) = some found := hfound
      cases found with
      | file => cases hkind
      | directory entries => simp [hat] at hwritten
    have hput : Path.endsInSlash path = false ∧ t.put names (.file content) = t' := by
      have hif : (if Path.endsInSlash path then .error .isDirectory else .ok (t.put names (.file content)) :
          Except OsError FileTree) = .ok t' := by
        cases hat : t.at? (some names) with
        | none => simpa only [hat] using hwritten
        | some found =>
          cases found with
          | file => simpa only [hat] using hwritten
          | directory entries => simp [hat] at hwritten
      cases hslash : Path.endsInSlash path <;> simp_all
    obtain ⟨hslash, rfl⟩ := hput
    have hroom := hasRoom_of_placeOf hplace
    refine ⟨names, hplace, hslash, hnot, fun other => ?_⟩
    by_cases hbelow : names <+: other
    · obtain ⟨below, rfl⟩ := hbelow
      rw [kindAt?_put_append hroom]
      cases below with
      | nil => simp [kind]
      | cons name below =>
        have hnone : t.kindAt? (names ++ name :: below) = none := by
          by_contra hne
          exact hnot (directory_of_below (by simp) hne)
        simp [hnone, kindAt?_cons, child?]
    · rw [kindAt?_put_other hroom _ hbelow, if_neg]
      rintro rfl
      exact hbelow List.prefix_rfl

theorem keepsDirectories_of_write {content : String} (h : t.write path content = .ok t') : t.KeepsDirectories t' := by
  obtain ⟨names, -, -, hnot, hkind⟩ := kindAt?_of_write h
  intro other hdir
  rw [hkind, if_neg, hdir]
  rintro rfl
  exact hnot hdir

/-! ## Paths that do not step up -/

/-- From outside no path comes back. -/
theorem walk_outside {steps : List String} (h : steps.foldlM t.step none = .ok there) : there = none := by
  induction steps with
  | nil =>
    cases h
    rfl
  | cons name steps ih =>
    rw [List.foldlM_cons] at h
    obtain ⟨next, hstep, h⟩ := exists_of_bind_eq_ok h
    obtain ⟨-, hfrom⟩ := step_eq_ok_iff.1 hstep
    have hnext : next = none := by
      unfold stepFrom at hfrom
      split at hfrom
      · cases hfrom
        rfl
      · simp only at hfrom
        split at hfrom <;> cases hfrom
        rfl
    subst hnext
    exact ih h

/-- Without a step up every directory that is passed stands above the end, so the same way can be gone in a tree
that has those directories. -/
theorem walk_of_above {steps above : List String} (hup : ".." ∉ steps)
    (hwalk : steps.foldlM t'.step (some above) = .ok (some names)) : above <+: names ∧
      ((∀ above, above <+: names → t'.kindAt? above = some .directory → t.kindAt? above = some .directory) →
        steps.foldlM t.step (some above) = .ok (some names)) := by
  induction steps generalizing above with
  | nil =>
    cases hwalk
    exact ⟨List.prefix_rfl, fun _ => rfl⟩
  | cons name steps ih =>
    rw [List.foldlM_cons] at hwalk
    obtain ⟨next, hstep, hwalk⟩ := exists_of_bind_eq_ok hwalk
    obtain ⟨hdir, hfrom⟩ := step_eq_ok_iff.1 hstep
    have hname : (name == "..") = false := by
      rw [beq_eq_false_iff_ne]
      rintro rfl
      exact hup List.mem_cons_self
    have hnext : ∃ deeper, next = some deeper ∧ above <+: deeper := by
      unfold stepFrom at hfrom
      split at hfrom
      · cases hfrom
        exact ⟨above, rfl, List.prefix_rfl⟩
      · simp only [hname, Bool.false_eq_true, if_false, Except.ok.injEq] at hfrom
        exact ⟨_, hfrom.symm, List.prefix_append above [name]⟩
    obtain ⟨deeper, rfl, hdeeper⟩ := hnext
    obtain ⟨hbelow, hsame⟩ := ih (fun hmem => hup (List.mem_cons_of_mem _ hmem)) hwalk
    refine ⟨hdeeper.trans hbelow, fun hdirs => ?_⟩
    have hdir' : t.kindOf? (some above) = some .directory := hdirs above (hdeeper.trans hbelow) hdir
    rw [List.foldlM_cons, step_eq_ok_iff.2 ⟨hdir', hfrom⟩]
    exact hsame hdirs

/-- A path that does not step up and leads to a file in the widened tree led to it before. -/
theorem isThere_of_widened {content : String} (h : t.Widened t') (hup : ".." ∉ Path.steps path)
    (hplace : t'.placeOf path = .ok (some names)) (hslash : Path.endsInSlash path = false)
    (hfile : t'.kindAt? names = some (.file content)) : t.isThere path = true := by
  have hbefore := h.file hfile
  obtain ⟨hzero, hempty, hwalk⟩ := placeOf_eq_ok_iff.1 hplace
  have hstart : start path = some [] := by
    unfold start
    split
    · rename_i habsolute
      rw [start, if_pos habsolute] at hwalk
      cases walk_outside hwalk
    · rfl
  rw [hstart] at hwalk
  have hdirs : ∀ above, above <+: names → t'.kindAt? above = some .directory → t.kindAt? above = some .directory := by
    rintro above ⟨below, rfl⟩ hdir
    -- the end is a file, so a directory stands strictly above it
    have hne : below ≠ [] := by
      rintro rfl
      rw [List.append_nil, hdir] at hfile
      cases hfile
    exact directory_of_below hne (by rw [hbefore]; simp)
  have hplace' : t.placeOf path = .ok (some names) :=
    placeOf_eq_ok_iff.2 ⟨hzero, hempty, by rw [hstart]; exact (walk_of_above hup hwalk).2 hdirs⟩
  exact isThere_iff.2 ⟨some names, .file content, hplace', hbefore, fun hs => by rw [hslash] at hs; cases hs⟩

end Tariff.FileTree
