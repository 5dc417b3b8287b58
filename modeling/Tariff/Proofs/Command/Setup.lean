import Mathlib
import Tariff.Command.Setup
import Tariff.Proofs.Action.Logic
import Tariff.Proofs.Backend.Loaded
import Tariff.Proofs.Files.Changes
/-
  Tariff.Proofs.Command.Setup — setting up in a tree of files.

  The command looks whether something is at the path, makes the directories above it, and writes. `SettingUp` has
  a case for each of its ends.

  - `setUp_changes_little`: however it ends, all that changes is that directories are new and that the path leads to
    the example, where there was nothing. From then on the example can be loaded, and setting up at this path again
    fails and changes nothing.
  - `setUp_writes_over`: one case is missed. A path may step up from a directory that is missing; then it leads
    nowhere when the command looks and, with the directory made, to a file that is there when it writes.
-/

namespace Tariff.Command

open Stateful (exec)

variable {m : Type → Type} [Monad m] {σ : Type} [Stateful m σ]

/-! ## A tree as a disk -/

theorem exec_get_tree (t : FileTree) (s : σ) : exec (get : StateT FileTree m FileTree) (t, s) = (t, t, s) := by
  have hget : (get : StateT FileTree m FileTree) t = pure (t, t) := rfl
  simp [Stateful.exec_stateT, StateT.run, hget]

theorem exec_set_tree (t t' : FileTree) (s : σ) :
    exec (set t' : StateT FileTree m PUnit) (t, s) = (⟨⟩, t', s) := by
  have hset : (set t' : StateT FileTree m PUnit) t = pure (⟨⟩, t') := rfl
  simp [Stateful.exec_stateT, StateT.run, hset]

theorem exec_disk_isThere (path : String) (t : FileTree) (s : σ) :
    exec ((FileTree.disk (m := m)).isThere path) (t, s) = (t.isThere path, t, s) := by
  simp [FileTree.disk, exec_get_tree]

theorem exec_disk_makeDirectories (path : String) (t : FileTree) (s : σ) :
    exec ((FileTree.disk (m := m)).makeDirectories path) (t, s) =
      ((t.makeDirectories (path.length + 1) path).1, (t.makeDirectories (path.length + 1) path).2, s) := by
  simp [FileTree.disk, exec_get_tree, exec_set_tree]

theorem exec_disk_write (path content : String) (t : FileTree) (s : σ) :
    exec ((FileTree.disk (m := m)).write path content) (t, s) =
      match t.write path content with
      | .ok t' => (.ok (), t', s)
      | .error why => (.error why, t, s) := by
  simp only [FileTree.disk, Stateful.exec_bind, exec_get_tree]
  cases t.write path content <;> simp [exec_set_tree]

/-- Making room adds directories, and stops only at one that cannot be made. -/
theorem exec_makeRoom (path : String) (t : FileTree) (s : σ) : ∃ t', t.Widened t' ∧
    ((makeRoom (FileTree.disk (m := m)) path).exec (t, s) = (.ok (), t', s) ∨
      ∃ directory why, (makeRoom (FileTree.disk (m := m)) path).exec (t, s) =
        (.error (.fault (.directoryNotMade directory why)), t', s)) := by
  unfold makeRoom
  cases Path.parent? path with
  | none => exact ⟨t, .refl t, .inl (Act.exec_pure _ _)⟩
  | some directory =>
    have hwide := FileTree.widened_makeDirectories (directory.length + 1) t directory
    rcases hmade : t.makeDirectories (directory.length + 1) directory with ⟨made, t'⟩
    rw [hmade] at hwide
    refine ⟨t', hwide, ?_⟩
    simp only [Act.exec_bind, Act.exec_liftM, exec_disk_makeDirectories, hmade, Act.exec_ofExcept]
    cases made with
    | ok => exact .inl rfl
    | error why => exact .inr ⟨directory, why, rfl⟩

/-! ## The course -/

/-- How setting up can end: the result, and the tree that is left. -/
inductive SettingUp (path : String) (t : FileTree) : Except Stop Unit → FileTree → Prop
  /-- Something is there. -/
  | there (found : t.isThere path = true) : SettingUp path t (.error (.fault (.configExists path))) t
  /-- A directory above the path cannot be made. -/
  | noRoom {directory : String} {why : OsError} {t' : FileTree} (new : t.isThere path = false) (room : t.Widened t') :
    SettingUp path t (.error (.fault (.directoryNotMade directory why))) t'
  /-- The file cannot be written. -/
  | unwritten {why : OsError} {t' : FileTree} (new : t.isThere path = false) (room : t.Widened t')
    (write : t'.write path Config.exampleText = .error why) :
    SettingUp path t (.error (.fault (.configNotWritten path why))) t'
  /-- The example is written. -/
  | written {t' u : FileTree} (new : t.isThere path = false) (room : t.Widened t')
    (write : t'.write path Config.exampleText = .ok u) : SettingUp path t (.ok ()) u

theorem setUp_course (path : String) (pages : List String) (t : FileTree) (s : σ) :
    (setUp (FileTree.disk (m := m)) path).Ensures (pages, t, s) fun r x => SettingUp path t r x.2.1 ∧ x.2.2 = s := by
  simp only [Act.Ensures, setUp, Act.exec_bind, Console.exec_perform, Act.exec_exceptT_lift, exec_disk_isThere]
  cases hthere : t.isThere path with
  | true =>
    simp only [if_true, Act.exec_bind, Act.exec_throw]
    exact ⟨.there hthere, trivial⟩
  | false =>
    simp only [Bool.false_eq_true, if_false, Act.exec_bind, Console.exec_perform]
    obtain ⟨t', hwide, hroom | ⟨directory, why, hroom⟩⟩ := exec_makeRoom (m := m) path t s
    · simp only [hroom, Console.exec_perform, Act.exec_exceptT_lift, exec_disk_write]
      cases hwritten : t'.write path Config.exampleText with
      | error why =>
        simp only [Act.exec_ofExcept, Except.mapError]
        exact ⟨.unwritten hthere hwide hwritten, trivial⟩
      | ok u =>
        simp only [Act.exec_ofExcept, Except.mapError, Console.exec_say]
        exact ⟨.written hthere hwide hwritten, trivial⟩
    · rw [hroom]
      exact ⟨.noRoom hthere hwide, rfl⟩

/-- Where something is, nothing is done. -/
theorem exec_setUp_of_isThere {path : String} {t : FileTree} (h : t.isThere path = true) (pages : List String) (s : σ) :
    (setUp (FileTree.disk (m := m)) path).exec (pages, t, s) =
      (.error (.fault (.configExists path)), pages, t, s) := by
  simp only [setUp, Act.exec_bind, Console.exec_perform, Act.exec_exceptT_lift, exec_disk_isThere, h, if_true,
    Act.exec_throw]

/-! ## What changes -/

/-- The path steps up, and the way that it goes is not there. -/
def StepsUpUnmade (t : FileTree) (path : String) : Prop :=
  ".." ∈ Path.steps path ∧ ∃ why, t.placeOf path = .error why

section
variable {path : String} {t u : FileTree} {r : Except Stop Unit}

/-- At the end of any names nothing changes, or a directory is new, or the path leads there and the example is new;
it stands over a file that was there only behind a step up from a directory that was not. -/
theorem SettingUp.changes (h : SettingUp path t r u) (names : List String) :
    u.kindAt? names = t.kindAt? names ∨
    t.kindAt? names = none ∧ u.kindAt? names = some .directory ∨
    (r = .ok () ∧ u.placeOf path = .ok (some names) ∧ u.kindAt? names = some (.file Config.exampleText)) ∧
      (t.kindAt? names = none ∨ (∃ old, t.kindAt? names = some (.file old)) ∧ StepsUpUnmade t path) := by
  cases h with
  | there found => exact .inl rfl
  | noRoom new room => exact (room names).imp_right .inl
  | unwritten new room write => exact (room names).imp_right .inl
  | @written t' _ new room write =>
    obtain ⟨target, hplace, hslash, hnot, hkind⟩ := FileTree.kindAt?_of_write write
    by_cases hnames : names = target
    · subst hnames
      refine .inr (.inr ⟨⟨rfl, FileTree.placeOf_of_keepsDirectories (FileTree.keepsDirectories_of_write write) hplace,
        by rw [hkind, if_pos rfl]⟩, ?_⟩)
      cases hold : t.kindAt? names with
      | none => exact .inl rfl
      | some found =>
        cases found with
        | directory => exact absurd (room.stays hold) hnot
        | file old =>
          refine .inr ⟨⟨old, rfl⟩, ?_, ?_⟩
          · by_contra hup
            rw [FileTree.isThere_of_widened room hup hplace hslash (room.stays hold)] at new
            cases new
          · cases hbefore : t.placeOf path with
            | error why => exact ⟨why, rfl⟩
            | ok place =>
              -- the path led to this very file already, so something was there
              have hsame := FileTree.placeOf_of_keepsDirectories room.keepsDirectories hbefore
              rw [hplace] at hsame
              cases hsame
              have hthere : t.isThere path = true :=
                FileTree.isThere_iff.2 ⟨_, _, hbefore, hold, fun hs => by rw [hslash] at hs; cases hs⟩
              rw [hthere] at new
              cases new
    · rw [hkind, if_neg hnames]
      exact (room names).imp_right .inl

theorem SettingUp.keepsDirectories (h : SettingUp path t r u) : t.KeepsDirectories u := by
  intro names hdir
  rcases h.changes names with hsame | ⟨hnone, -⟩ | ⟨-, hnone | ⟨⟨old, hold⟩, -⟩⟩
  · rw [hsame, hdir]
  · rw [hdir] at hnone
    cases hnone
  · rw [hdir] at hnone
    cases hnone
  · rw [hdir] at hold
    cases hold

/-- The path leads to the example. -/
def HoldsExample (t : FileTree) (path : String) : Prop :=
  Path.endsInSlash path = false ∧
    ∃ names, t.placeOf path = .ok (some names) ∧ t.kindAt? names = some (.file Config.exampleText)

theorem HoldsExample.isThere (h : HoldsExample t path) : t.isThere path = true := by
  obtain ⟨hslash, names, hplace, hkind⟩ := h
  exact FileTree.isThere_iff.2 ⟨some names, _, hplace, hkind, fun hs => by rw [hslash] at hs; cases hs⟩

theorem HoldsExample.read (h : HoldsExample t path) : t.read path = .ok Config.exampleText := by
  obtain ⟨hslash, names, hplace, hkind⟩ := h
  exact FileTree.read_of_kindAt? hplace hkind hslash

theorem SettingUp.holdsExample (h : SettingUp path t (.ok ()) u) : HoldsExample u path := by
  cases h with
  | written new room write =>
    obtain ⟨names, hplace, hslash, -, hkind⟩ := FileTree.kindAt?_of_write write
    exact ⟨hslash, names, FileTree.placeOf_of_keepsDirectories (FileTree.keepsDirectories_of_write write) hplace,
      by rw [hkind, if_pos rfl]⟩

/-- Whatever is set up elsewhere, the example stays; all that is written over it is the example. -/
theorem HoldsExample.of_settingUp {other : String} (h : SettingUp other t r u) (hold : HoldsExample t path) :
    HoldsExample u path := by
  obtain ⟨hslash, names, hplace, hkind⟩ := hold
  refine ⟨hslash, names, FileTree.placeOf_of_keepsDirectories h.keepsDirectories hplace, ?_⟩
  rcases h.changes names with hsame | ⟨hnone, -⟩ | ⟨⟨-, -, hexample⟩, -⟩
  · rw [hsame, hkind]
  · rw [hkind] at hnone
    cases hnone
  · exact hexample

end

/-- Set up at one path after the other, however each time ends. -/
def setUps (paths : List String) (x : List String × FileTree × σ) : List String × FileTree × σ :=
  paths.foldl (fun x path => ((setUp (FileTree.disk (m := m)) path).exec x).2) x

theorem holdsExample_setUps {path : String} (paths : List String) {x : List String × FileTree × σ}
    (h : HoldsExample x.2.1 path) : HoldsExample (setUps (m := m) paths x).2.1 path := by
  induction paths generalizing x with
  | nil => exact h
  | cons other paths ih => exact ih (h.of_settingUp (setUp_course other x.1 x.2.1 x.2.2).1)

theorem toList_exampleText :
    Config.exampleText.toList = "\n".toList.intercalate (Config.exampleLines.map String.toList) := by
  rw [Config.exampleText, Text.joinLines, String.toList_intercalate]

theorem decode_exampleText : Yaml.decode Config.decode Config.exampleText =
    .ok ⟨⟨"https://billing.example.com/admin", some "sk_test_replace_me"⟩, ⟨300, 30⟩⟩ := by
  -- line by line the characters are computed in a fraction of the time
  rw [Yaml.decode, Yaml.readDocument, Yaml.tokens, toList_exampleText]
  decide +kernel

/-- However setting up ends, at the end of any names nothing changed, or a directory is new, or it succeeded and the
example is new where the path leads; and a file was there only if the path steps up on a way that was not there.
Where something is at the path, it fails and nothing changed. Where it succeeds, the example is read at the path;
and however often it is set up after that, at this path or others, the configuration is loaded from the path, and
setting up at it fails and changes nothing. -/
theorem setUp_changes_little (path : String) (pages : List String) (t : FileTree) (s : σ) :
    (setUp (FileTree.disk (m := m)) path).Ensures (pages, t, s) fun r x =>
      (∀ names, x.2.1.kindAt? names = t.kindAt? names ∨
        t.kindAt? names = none ∧ x.2.1.kindAt? names = some .directory ∨
        (r = .ok () ∧ x.2.1.placeOf path = .ok (some names) ∧
            x.2.1.kindAt? names = some (.file Config.exampleText)) ∧
          (t.kindAt? names = none ∨ (∃ old, t.kindAt? names = some (.file old)) ∧ StepsUpUnmade t path)) ∧
      (t.isThere path = true → r = .error (.fault (.configExists path)) ∧ x.2.1 = t) ∧
      (r = .ok () → x.2.1.read path = .ok Config.exampleText ∧ ∀ later : List String,
        let y := setUps (m := m) later x
        (∃ config, (Config.load (FileTree.disk (m := m)) path).exec y.2 = (.ok config, y.2)) ∧
        (setUp (FileTree.disk (m := m)) path).exec y = (.error (.fault (.configExists path)), y)) := by
  obtain ⟨hcourse, -⟩ := setUp_course (m := m) path pages t s
  refine ⟨hcourse.changes, fun hthere => ?_, fun hok => ?_⟩
  · rw [exec_setUp_of_isThere hthere]
    exact ⟨rfl, rfl⟩
  · rw [hok] at hcourse
    have hholds := hcourse.holdsExample
    refine ⟨hholds.read, fun later => ?_⟩
    have hlater := holdsExample_setUps (m := m) later hholds
    exact ⟨⟨_, Config.load_tree hlater.read decode_exampleText _⟩, exec_setUp_of_isThere hlater.isThere _ _⟩

/-- A file is lost: the path leads to it only once the directory is made that it steps up from. -/
theorem setUp_writes_over :
    let t := FileTree.directory [("config.yaml", .file "keep me\n")]
    let ended := (setUp (FileTree.disk (m := StateM Unit)) "missing/../config.yaml").exec ([], t, ())
    t.read "config.yaml" = .ok "keep me\n" ∧ ended.1 = .ok () ∧
      ended.2.2.1.read "config.yaml" = .ok Config.exampleText := by
  decide +kernel

end Tariff.Command
