import TypeInventory.Proofs.File.Components
import TypeInventory.Proofs.Output.Schedules

set_option relaxedAutoImplicit false
set_option autoImplicit false

/-!
# Where pages are written

The name of a type may be any text: a path of its own, a path that leads upwards, nothing at all.
Its page is written in the directory of the output all the same. Slashes are among the characters
that are replaced, so the file name is one part, and its ending makes it neither empty nor dots.

Replacing keeps the number of characters, so two pages share a file exactly when their names differ
in replaced characters only.

## Main definitions

* `Page.file` — the name of the file of a page.
* `LooksLike`, `IsLookalike` — characters, and names, that are the same in file names.
* `FileTree.baseDirectory?` — the directory in which a path continues another one.

## Main results

* `Page.isPlainName_file` — the name of a file is a name and nothing else.
* `fileName_eq_iff` — the names with the same file name.
* `pages_stay_in_directory` — pages are written into one directory, each into one file of it.
-/

namespace TypeInventory

/-! ## Characters -/

/-- The characters that are allowed: all but control characters and some others. -/
lemma isAllowed_iff {c : Char} :
    isAllowed c = true ↔ isControl c = false ∧ c ∉ refusedCharacters := by
  simp [isAllowed]

/-- A character that is not allowed gives way to the substitute. -/
lemma allowed_of_not_isAllowed {c : Char} (h : isAllowed c ≠ true) : allowed c = substitute :=
  if_neg h

/-- Two characters that are the same in a file name: if they differ, each of them is replaced or
is what characters are replaced with. -/
def LooksLike (c d : Char) : Prop :=
  c = d ∨
    (isControl c = true ∨ c ∈ refusedCharacters ∨ c = substitute) ∧
      (isControl d = true ∨ d ∈ refusedCharacters ∨ d = substitute)

instance (c d : Char) : Decidable (LooksLike c d) :=
  inferInstanceAs (Decidable (_ ∨ _ ∧ _))

/-- The characters that become the substitute. -/
lemma allowed_eq_substitute_iff {c : Char} :
    allowed c = substitute ↔ isControl c = true ∨ c ∈ refusedCharacters ∨ c = substitute := by
  by_cases h : isAllowed c = true
  · obtain ⟨hcontrol, hrefused⟩ := isAllowed_iff.mp h
    simp [allowed_of_isAllowed h, hcontrol, hrefused]
  · have hreplaced : isControl c = true ∨ c ∈ refusedCharacters := by
      by_contra hnot
      rw [not_or, Bool.not_eq_true] at hnot
      exact h (isAllowed_iff.mpr hnot)
    simp only [allowed_of_not_isAllowed h, true_iff]
    exact hreplaced.imp_right Or.inl

/-- **The characters that are the same in a file name.** -/
lemma allowed_eq_allowed_iff {c d : Char} : allowed c = allowed d ↔ LooksLike c d := by
  rw [LooksLike, ← allowed_eq_substitute_iff, ← allowed_eq_substitute_iff]
  constructor
  · intro h
    by_cases hc : isAllowed c = true
    · by_cases hd : isAllowed d = true
      · rw [allowed_of_isAllowed hc, allowed_of_isAllowed hd] at h
        exact .inl h
      · exact .inr ⟨h.trans (allowed_of_not_isAllowed hd), allowed_of_not_isAllowed hd⟩
    · exact .inr ⟨allowed_of_not_isAllowed hc, h.symm.trans (allowed_of_not_isAllowed hc)⟩
  · rintro (rfl | ⟨hc, hd⟩)
    · rfl
    · exact hc.trans hd.symm

/-! ## File names -/

/-- Replacing keeps the number of characters. -/
lemma length_fileName (name : String) : (fileName name).length = name.length := by
  rw [← String.length_toList, ← String.length_toList, toList_fileName, List.length_map]

/-- Only characters that are allowed are left. -/
lemma isAllowed_of_mem_fileName {name : String} {c : Char} (h : c ∈ (fileName name).toList) :
    isAllowed c = true := by
  rw [toList_fileName, List.mem_map] at h
  obtain ⟨d, -, rfl⟩ := h
  exact isAllowed_allowed d

/-- Replacing again changes nothing. -/
lemma fileName_fileName (name : String) : fileName (fileName name) = fileName name := by
  refine String.toList_injective ?_
  rw [toList_fileName (fileName name)]
  conv_rhs => rw [← List.map_id (fileName name).toList]
  exact List.map_congr_left fun c hc => allowed_of_isAllowed (isAllowed_of_mem_fileName hc)

/-- An allowed character stays where it is. -/
lemma getElem?_fileName {name : String} {i : ℕ} {c : Char} (h : name.toList[i]? = some c)
    (hallowed : isAllowed c = true) : (fileName name).toList[i]? = some c := by
  rw [toList_fileName, List.getElem?_map, h, Option.map_some, allowed_of_isAllowed hallowed]

/-- Two names that are the same as file names: they have the same length and look alike at every
position. -/
structure IsLookalike (s t : String) : Prop where
  /-- They have the same length. -/
  length_eq : s.length = t.length
  /-- At every position are characters that look alike. -/
  looksLike : ∀ (i : ℕ) (c d : Char), s.toList[i]? = some c → t.toList[i]? = some d → LooksLike c d

/-- **The names with the same file name.** -/
lemma fileName_eq_iff {s t : String} : fileName s = fileName t ↔ IsLookalike s t := by
  rw [← String.toList_inj, toList_fileName, toList_fileName]
  constructor
  · intro h
    refine ⟨?_, fun i c d hc hd => ?_⟩
    · have hlength := congrArg List.length h
      rwa [List.length_map, List.length_map, String.length_toList, String.length_toList] at hlength
    · have hi := congrArg (·[i]?) h
      simp only [List.getElem?_map, hc, hd, Option.map_some, Option.some.injEq] at hi
      exact allowed_eq_allowed_iff.mp hi
  · rintro ⟨hlength, halike⟩
    rw [← String.length_toList, ← String.length_toList] at hlength
    refine List.ext_getElem (by rwa [List.length_map, List.length_map]) fun i hs ht => ?_
    rw [List.getElem_map, List.getElem_map]
    exact allowed_eq_allowed_iff.mpr
      (halike i _ _ (List.getElem?_eq_getElem _) (List.getElem?_eq_getElem _))

instance (s t : String) : Decidable (IsLookalike s t) :=
  decidable_of_iff _ fileName_eq_iff

/-! ## Pages -/

namespace Page

/-- The name of the file of a page. -/
def file (p : Page) : String :=
  fileName p.name ++ pageEnding

/-- The file of a page is in the directory of the output. -/
lemma path_eq (directory : String) (p : Page) : p.path directory = Path.join directory p.file := rfl

/-- The ending adds four characters. -/
lemma length_file (p : Page) : p.file.length = p.name.length + 4 := by
  rw [file, String.length_append, length_fileName]
  rfl

/-- **The name of the file of a page is a name and nothing else**, whatever the type is called. -/
lemma isPlainName_file (p : Page) : Path.IsPlainName p.file where
  slash_notMem := by
    rw [file, String.toList_append, List.mem_append]
    rintro (h | h)
    · exact absurd (isAllowed_of_mem_fileName h) (by decide)
    · exact absurd h (by decide)
  not_idle := by
    have hlength := p.length_file
    rw [Path.isIdle, Bool.or_eq_false_iff, beq_eq_false_iff_ne]
    constructor
    · refine Bool.eq_false_iff.mpr fun h => ?_
      rw [String.isEmpty_iff.mp h] at hlength
      exact absurd hlength.symm (Nat.succ_ne_zero _)
    · intro h
      rw [h] at hlength
      exact absurd hlength (by rw [show ".".length = 1 from rfl]; omega)
  ne_up := by
    intro h
    have hlength := p.length_file
    rw [h] at hlength
    exact absurd hlength (by rw [show "..".length = 2 from rfl]; omega)

/-- Two pages have the same file exactly when the names of their types are lookalikes. -/
lemma file_eq_iff {p q : Page} : p.file = q.file ↔ IsLookalike p.name q.name := by
  rw [file, file, String.append_left_inj, fileName_eq_iff]

/-- **Two pages are written under the same path** exactly when they have the same file. -/
lemma path_eq_iff {directory : String} {p q : Page} :
    p.path directory = q.path directory ↔ IsLookalike p.name q.name :=
  (Path.join_inj p.isPlainName_file q.isPlainName_file).trans file_eq_iff

/-- Paths are the same if they have the same components. -/
lemma components_path_eq_iff {directory : String} {p q : Page} :
    Path.components (p.path directory) = Path.components (q.path directory) ↔
      p.path directory = q.path directory := by
  refine ⟨fun h => ?_, congrArg _⟩
  rw [path_eq, path_eq, Path.components_join _ p.isPlainName_file,
    Path.components_join _ q.isPlainName_file] at h
  have hlast := List.append_cancel_left h
  rw [path_eq, path_eq, (Path.Component.name.inj (List.cons.inj hlast).1)]

/-- A page that is written changes one file, and that is in the directory of the output. -/
lemma exists_of_write_eq_ok {directory : String} {p : Page} {files files' : FileTree}
    {content : ByteArray} (h : files.write (p.path directory) content = .ok files') :
    ∃ inner, files.baseDirectory? directory = some inner ∧
      files' = files.put ⟨inner, p.file⟩ content := by
  obtain ⟨⟨inner, name⟩, htarget, rfl⟩ := FileTree.write_eq_ok_iff.mp h
  obtain ⟨hinner, rfl⟩ := FileTree.target?_join p.isPlainName_file htarget
  exact ⟨inner, hinner, rfl⟩

end Page

/-- **A dump on the way changes no file outside of its directory.** -/
lemma content?_of_run {filters : Filters} {directory : String} {types : List TypeInfo}
    {files : FileTree} {trace : List Completion} {s : Progress}
    (h : Run filters directory { types, files } trace s) {place : Place}
    (hplace : files.baseDirectory? directory ≠ some place.directory) :
    s.files.content? place = files.content? place := by
  obtain ⟨passed, -, haccords⟩ := accords_of_run h
  have hnone : lastWritten? directory files trace place = none := by
    by_contra hwritten
    obtain ⟨page, hlast⟩ := Option.ne_none_iff_exists'.mp hwritten
    exact hplace (FileTree.target?_join page.isPlainName_file
      (exists_mem_of_lastWritten? hlast).2).1
  rw [haccords.content, hnone]
  rfl

/-- **Pages are written into the directory of the output and nowhere else**, whatever their types
are called. The path of a page has one component more than the directory: the name of its file,
which is neither dots nor a path. Writing the page changes this one file of the directory, and no
order of writes changes a file elsewhere.

The name of the file is that of the type with the ending of pages; the characters that are refused
are replaced one by one, all others stay where they are. So the pages that share a path are those
whose names differ in nothing but replaced characters.

**Proof sketch.** A slash is refused, hence the name of the file is one part of the path, and the
ending tells it from the empty part and from dots. A path is followed part by part, so the last one
is looked up in the directory that all others lead to. -/
theorem pages_stay_in_directory (directory : String) (p : Page) :
    (Path.components (p.path directory) = Path.components directory ++ [.name p.file] ∧
      p.file ≠ "." ∧ p.file ≠ ".." ∧ '/' ∉ p.file.toList ∧ p.file = fileName p.name ++ ".txt") ∧
    (∀ (files files' : FileTree) (content : ByteArray),
      files.write (p.path directory) content = .ok files' →
      ∃ inner, files.baseDirectory? directory = some inner ∧
        files' = files.put ⟨inner, p.file⟩ content) ∧
    (∀ filters types files trace s, Run filters directory { types, files } trace s →
      ∀ place : Place, files.baseDirectory? directory ≠ some place.directory →
        s.files.content? place = files.content? place) ∧
    ((fileName p.name).length = p.name.length ∧
      (∀ c ∈ (fileName p.name).toList, isControl c = false ∧ c ∉ refusedCharacters) ∧
      fileName (fileName p.name) = fileName p.name ∧
      ∀ (i : ℕ) (c : Char), p.name.toList[i]? = some c → isControl c = false →
        c ∉ refusedCharacters → (fileName p.name).toList[i]? = some c) ∧
    ∀ q : Page,
      (p.path directory = q.path directory ↔ IsLookalike p.name q.name) ∧
      (Path.components (p.path directory) = Path.components (q.path directory) ↔
        IsLookalike p.name q.name) := by
  have hplain := p.isPlainName_file
  refine ⟨⟨Path.components_join directory hplain, hplain.ne_dot, hplain.ne_up,
      hplain.slash_notMem, rfl⟩,
    fun files files' content hwrite => p.exists_of_write_eq_ok hwrite,
    fun filters types files trace s hrun place hplace => content?_of_run hrun hplace,
    ⟨length_fileName p.name, fun c hc => isAllowed_iff.mp (isAllowed_of_mem_fileName hc),
      fileName_fileName p.name, fun i c hc hcontrol hrefused =>
        getElem?_fileName hc (isAllowed_iff.mpr ⟨hcontrol, hrefused⟩)⟩,
    fun q => ⟨Page.path_eq_iff, Page.components_path_eq_iff.trans Page.path_eq_iff⟩⟩

/-- A directory of output, and nothing else. -/
def emptyOutput : FileTree :=
  FileTree.addDirectory ∅ ⟨0, "out"⟩

/-- A type whose name leads upwards and ends in a character that no path has. -/
def climbingType : TypeInfo where
  name := "../../etc/passwd\x00"
  fullName := "../../etc/passwd\x00"
  methods := [{ name := "Run" }]

/-- The page of this type. -/
def climbingPage : Page :=
  Page.ofType {} climbingType

/-- This type by the general law: its page is a file in the directory of the output, which it shares
with a type whose name has other refused characters, but not with one that has more characters. -/
theorem pages_stay_in_directory_climbingPage :
    Path.components (climbingPage.path "out") =
      [.name "out", .name ".._.._etc_passwd_.txt"] ∧
    (∃ files, emptyOutput.write (climbingPage.path "out") climbingPage.text.toUTF8 = .ok files ∧
      files.content? ⟨1, ".._.._etc_passwd_.txt"⟩ = some climbingPage.text.toUTF8 ∧
      ∃ s, Run {} "out" { types := [climbingType], files := emptyOutput } [⟨climbingPage, none⟩] s ∧
        s.files = files ∧ s.files.content? ⟨0, "passwd"⟩ = none) ∧
    (fileName climbingPage.name).toList[1]? = some '.' ∧
    climbingPage.path "out" = { climbingPage with name := "..|..|etc_passwd?" }.path "out" ∧
    climbingPage.path "out" ≠ { climbingPage with name := "..//..//etc_passwd?" }.path "out" := by
  obtain ⟨⟨hcomponents, -⟩, hwrites, hruns, ⟨-, -, -, hkept⟩, hpaths⟩ :=
    pages_stay_in_directory "out" climbingPage
  have hfile : climbingPage.file = ".._.._etc_passwd_.txt" := by decide +kernel
  have hwrite : emptyOutput.write (climbingPage.path "out") climbingPage.text.toUTF8 =
      .ok (emptyOutput.put ⟨1, climbingPage.file⟩ climbingPage.text.toUTF8) := rfl
  have hpage : selectedPage? {} climbingType = some climbingPage := by decide +kernel
  have hrun : Run {} "out" { types := [climbingType], files := emptyOutput }
      [⟨climbingPage, none⟩] _ :=
    .tail (.tail (.refl _) (.dispatch rfl hpage)) (.write List.mem_cons_self hwrite)
  refine ⟨?_, ⟨_, hwrite, ?_, _, hrun, rfl, ?_⟩, ?_, ?_, ?_⟩
  · rw [hcomponents, hfile]
    decide +kernel
  · obtain ⟨inner, hinner, hput⟩ := hwrites _ _ _ hwrite
    obtain rfl := Option.some.inj (hinner.symm.trans (show _ = some 1 from rfl))
    rw [hput, hfile, FileTree.content?_put, if_pos rfl]
  · exact (hruns _ _ _ _ _ hrun ⟨0, "passwd"⟩ (by decide +kernel)).trans rfl
  · exact hkept 1 '.' rfl (by decide) (by decide)
  · exact (hpaths _).1.mpr (by decide +kernel)
  · exact fun hsame => absurd ((hpaths _).1.mp hsame).length_eq (by decide +kernel)

end TypeInventory
