import Mathlib
import TypeInventory.Dump
import TypeInventory.Host.Session

set_option relaxedAutoImplicit false
set_option autoImplicit false

/-!
# What sessions do to files

Where a file is written does not depend on the contents of other files, and directories are created
without touching any file. A session without a file for its log changes files in no other way.

## Main definitions

* `FileTree.target?` — the place at which the file of a path is written.
* `FileTree.prepare` — creating a directory and those around it.
* `Session.IsQuiet` — sessions whose log is in no file.

## Main results

* `FileTree.target?_put` — writing a file moves no target.
* `FileTree.content?_prepare` — creating directories changes no file.
* `Session.run_createDirectories` — creating directories in a session.
-/

namespace TypeInventory

/-! ## Targets -/

namespace FileTree

/-- The place at which the file of a path is written, if there can be one. -/
def target? (files : FileTree) (path : String) : Option Place :=
  (files.writablePlace path).toOption

variable {files : FileTree}

/-- Following a path leads to the same place after a file is put somewhere; only the reason why it
leads nowhere may change. -/
lemma follow_put_eq_ok_iff {place : Place} {content : ByteArray} {directory : ℕ}
    {parts : List String} {destination : Destination} :
    (files.put place content).follow directory parts = .ok destination ↔
      files.follow directory parts = .ok destination := by
  induction parts generalizing directory with
  | nil => exact Iff.rfl
  | cons part parts ih =>
    unfold follow
    by_cases hidle : Path.isIdle part
    · rw [if_pos hidle, if_pos hidle]
      exact ih
    · rw [if_neg hidle, if_neg hidle]
      by_cases hup : part = ".."
      · rw [if_pos hup, if_pos hup]
        exact ih
      · rw [if_neg hup, if_neg hup]
        by_cases hlast : parts.all String.isEmpty
        · rw [if_pos hlast, if_pos hlast]
        · rw [if_neg hlast, if_neg hlast, directories_put]
          by_cases hlong : nameLimit < part.utf8ByteSize
          · rw [if_pos hlong, if_pos hlong]
          · rw [if_neg hlong, if_neg hlong]
            cases files.directories[Place.mk directory part]? with
            | some inner => exact ih
            | none => simp

/-- The same for whole paths. -/
lemma locate_put_eq_ok_iff {place : Place} {content : ByteArray} {path : String}
    {destination : Destination} :
    (files.put place content).locate path = .ok destination ↔
      files.locate path = .ok destination := by
  unfold locate
  split_ifs
  · exact Iff.rfl
  · exact Iff.rfl
  · exact Iff.rfl
  · exact follow_put_eq_ok_iff
  · exact follow_put_eq_ok_iff

/-- A path has a target exactly when it leads to a place where a file can be. -/
lemma target?_eq_some_iff {path : String} {place : Place} :
    files.target? path = some place ↔
      files.locate path = .ok (.entry place false) ∧ place.name.utf8ByteSize ≤ nameLimit ∧
        files.directories.contains place = false := by
  unfold target? writablePlace
  cases files.locate path with
  | error e => simp [bind, Except.bind, Except.toOption]
  | ok destination =>
    cases destination with
    | directory number => simp [bind, Except.bind, Except.toOption]
    | entry found asksDirectory =>
      have hentry : (Except.ok (.entry found asksDirectory) : Except FileFault Destination) =
          .ok (.entry place false) ↔ found = place ∧ asksDirectory = false := by
        simp
      rw [hentry]
      simp only [bind, Except.bind]
      split_ifs with hasks hlong htaken
      · simp [Except.toOption, hasks]
      · simp only [Except.toOption, reduceCtorEq, false_iff]
        rintro ⟨⟨rfl, -⟩, hshort, -⟩
        omega
      · simp only [Except.toOption, reduceCtorEq, false_iff]
        rintro ⟨⟨rfl, -⟩, -, hfree⟩
        simp [hfree] at htaken
      · simp only [Except.toOption, Option.some.injEq]
        constructor
        · rintro rfl
          exact ⟨⟨rfl, by simpa using hasks⟩, by omega, Bool.eq_false_iff.mpr htaken⟩
        · rintro ⟨⟨rfl, -⟩, -⟩
          rfl

/-- **Writing a file moves no target.** -/
lemma target?_put (place : Place) (content : ByteArray) (path : String) :
    (files.put place content).target? path = files.target? path := by
  ext target
  rw [target?_eq_some_iff, target?_eq_some_iff, locate_put_eq_ok_iff, directories_put]

/-- A file is written at its target. -/
lemma write_eq_ok_iff {path : String} {content : ByteArray} {files' : FileTree} :
    files.write path content = .ok files' ↔
      ∃ place, files.target? path = some place ∧ files' = files.put place content := by
  unfold write target?
  cases files.writablePlace path with
  | error e => simp [Except.map, Except.toOption]
  | ok place => simp [Except.map, Except.toOption, eq_comm]

/-- Creating a directory changes no file. -/
lemma content?_of_createDirectory {path : String} {files' : FileTree}
    (h : files.createDirectory path = .ok files') (place : Place) :
    files'.content? place = files.content? place := by
  unfold createDirectory at h
  cases hlocate : files.locate path with
  | error e =>
    rw [hlocate] at h
    cases h
  | ok destination =>
    rw [hlocate] at h
    cases destination with
    | directory number => cases h
    | entry found asksDirectory =>
      simp only [bind, Except.bind] at h
      split_ifs at h
      cases h
      rfl

end FileTree

/-! ## Directories -/

namespace Session

/-- What only prepares directories: it looks at nothing in a session but its files, and it changes
nothing but them, and of them no contents. -/
structure OnlyPrepares {α : Type} (x : StateM Session α) : Prop where
  /-- It works on files alone. -/
  onFiles : ∀ s : Session, x s = ((x { files := s.files }).1,
    { s with files := (x { files := s.files }).2.files })
  /-- It changes no contents. -/
  content : ∀ (s : Session) (place : Place),
    (x s).2.files.content? place = s.files.content? place

variable {α β : Type}

lemma onlyPrepares_pure (a : α) : OnlyPrepares (pure a) :=
  ⟨fun _ => rfl, fun _ _ => rfl⟩

/-- One preparation after another. -/
lemma onlyPrepares_bind {x : StateM Session α} {f : α → StateM Session β} (hx : OnlyPrepares x)
    (hf : ∀ a, OnlyPrepares (f a)) : OnlyPrepares (x >>= f) := by
  refine ⟨fun s => ?_, fun s place => ?_⟩
  · show f (x s).1 (x s).2 = _
    rw [hx.onFiles s, (hf _).onFiles]
    show _ = ((f (x _).1 (x _).2).1, { s with files := (f (x _).1 (x _).2).2.files })
    rw [(hf _).onFiles (x { files := s.files }).2]
  · show (f (x s).1 (x s).2).2.files.content? place = _
    rw [(hf _).content, hx.content]

/-- Asking for a directory changes nothing. -/
lemma onlyPrepares_isDirectory (path : String) :
    OnlyPrepares (Host.isDirectory path : StateM Session Bool) :=
  ⟨fun _ => rfl, fun _ _ => rfl⟩

/-- Changing the files of a session. -/
lemma run_change (f : FileTree → Except FileFault FileTree) (s : Session) :
    change f s =
      match f s.files with
      | .ok files => (.ok (), { s with files })
      | .error e => (.error e, s) := rfl

/-- Creating one directory. -/
lemma onlyPrepares_createDirectory (path : String) :
    OnlyPrepares (Host.createDirectory path : StateM Session _) := by
  have hrun : ∀ s : Session, (Host.createDirectory path : StateM Session _) s = _ :=
    run_change fun files => files.createDirectory path
  refine ⟨fun s => ?_, fun s place => ?_⟩
  · rw [hrun, hrun]
    cases s.files.createDirectory path <;> rfl
  · rw [hrun]
    cases hfiles : s.files.createDirectory path with
    | error e => rfl
    | ok files => exact FileTree.content?_of_createDirectory hfiles place

/-- Creating a directory, unless it exists. -/
lemma onlyPrepares_ensureDirectory (path : String) :
    OnlyPrepares (ensureDirectory path : StateM Session _) := by
  unfold ensureDirectory
  refine onlyPrepares_bind (onlyPrepares_createDirectory path) fun result => ?_
  cases result with
  | ok _ => exact onlyPrepares_pure _
  | error e =>
    exact onlyPrepares_bind (onlyPrepares_isDirectory path) fun _ => onlyPrepares_pure _

/-- Creating a directory and those around it. -/
lemma onlyPrepares_createDirectories (path : String) :
    OnlyPrepares (createDirectories path : StateM Session _) := by
  have hwithin : ∀ levels path,
      OnlyPrepares (createDirectoriesWithin levels path : StateM Session _) := by
    intro levels
    induction levels with
    | zero => exact fun _ => onlyPrepares_pure _
    | succ levels ih =>
      intro path
      unfold createDirectoriesWithin
      split_ifs
      · exact onlyPrepares_pure _
      · refine onlyPrepares_bind (onlyPrepares_ensureDirectory path) fun result => ?_
        -- Only a directory that is missed around this one leads further.
        split
        · refine onlyPrepares_bind (ih _) fun result => ?_
          cases result with
          | ok _ => exact onlyPrepares_ensureDirectory path
          | error e => exact onlyPrepares_pure _
        · exact onlyPrepares_pure _
  exact hwithin _ path

end Session

namespace FileTree

/-- Creates a directory and those around it, as far as they are missing. -/
def prepare (files : FileTree) (directory : String) : Except FileFault Unit × FileTree :=
  let (result, s) := (createDirectories directory : StateM Session _) { files }
  (result, s.files)

/-- **Creating directories changes no file**, even where it fails. -/
lemma content?_prepare (files : FileTree) (directory : String) (place : Place) :
    (files.prepare directory).2.content? place = files.content? place :=
  (Session.onlyPrepares_createDirectories directory).content { files } place

end FileTree

namespace Session

/-- Creating directories in a session changes its files as it does without one. -/
lemma run_createDirectories (s : Session) (directory : String) :
    (createDirectories directory : StateM Session _) s =
      ((s.files.prepare directory).1, { s with files := (s.files.prepare directory).2 }) :=
  (onlyPrepares_createDirectories directory).onFiles s

/-! ## Logs -/

/-- A session whose log is in no file. -/
def IsQuiet (s : Session) : Prop :=
  s.logPlace? = none

/-- Telling the log of a quiet session changes no file. -/
lemma files_tell {s : Session} (h : s.IsQuiet) (entry : LogEntry) :
    (s.tell entry).files = s.files ∧ (s.tell entry).IsQuiet := by
  unfold tell IsQuiet at *
  split_ifs
  · simp [h]
  · exact ⟨rfl, h⟩

end Session

end TypeInventory
