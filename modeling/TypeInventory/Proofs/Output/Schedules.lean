import TypeInventory.Proofs.Output.Pages
import TypeInventory.Proofs.Output.Sessions

set_option relaxedAutoImplicit false
set_option autoImplicit false

/-!
# Dumps with writes in any order

A dump goes through the types in order and hands each page on to be written while it goes on itself.
The writes end in any order, each of them with the file written or with a failure. This module
describes such dumps step by step, with the order of the writes left open, and says what all of them
have in common: the totals, the pages that are accounted for, and the files that are left.

## Main definitions

* `Filters.emits` — types that have a page.
* `Completion`, `Progress`, `Step`, `Run` — dumps on the way, and how they go on.
* `lastWritten?` — the page whose file is left at a place.
* `Progress.Accords` — what a dump has done so far agrees with the types that it has passed.

## Main results

* `Progress.Accords.step`, `accords_of_run` — every step, and hence every run, keeps this agreement.
* `exists_run_of_pending` — the writes may end in any order, with any failures.
-/

namespace TypeInventory

/-! ## Types with pages -/

/-- Whether a type has a page: it is accepted, and so is one of its members. -/
def Filters.emits (filters : Filters) (t : TypeInfo) : Bool :=
  filters.acceptsType t && (t.methods.any filters.acceptsMethod || t.fields.any acceptsField)

section Pages

variable (filters : Filters)

/-- A type has a page exactly when it is accepted with a member. -/
lemma isSome_selectedPage? (t : TypeInfo) : (selectedPage? filters t).isSome = filters.emits t := by
  unfold selectedPage? Filters.emits
  rw [← Page.isSome_ofType?]
  cases filters.acceptsType t <;> rfl

variable {filters} in
/-- The page of a type has a line for each method that is accepted. -/
lemma length_methodLines_of_selectedPage? {t : TypeInfo} {page : Page}
    (h : selectedPage? filters t = some page) :
    page.methodLines.length = t.methods.countP filters.acceptsMethod := by
  unfold selectedPage? at h
  split_ifs at h
  rw [Page.eq_of_ofType?_eq_some h]
  simp [Page.ofType, List.countP_eq_length_filter]

/-- There are as many pages as types that have one. -/
lemma length_selectedPages (types : List TypeInfo) :
    (selectedPages filters types).length = types.countP filters.emits := by
  rw [selectedPages, List.length_filterMap_eq_countP]
  simp only [isSome_selectedPage?]

/-- The lines of methods are as many as the accepted methods of the types that have a page. -/
lemma methodTotal_selectedPages (types : List TypeInfo) :
    methodTotal (selectedPages filters types) =
      ((types.filter filters.emits).map fun t => t.methods.countP filters.acceptsMethod).sum := by
  induction types with
  | nil => rfl
  | cons t types ih =>
    have hemits := isSome_selectedPage? filters t
    unfold selectedPages methodTotal at *
    cases hpage : selectedPage? filters t with
    | none =>
      rw [hpage, Option.isSome_none] at hemits
      rw [List.filterMap_cons_none hpage, List.filter_cons_of_neg (by simp [← hemits]), ih]
    | some page =>
      rw [hpage, Option.isSome_some] at hemits
      rw [List.filterMap_cons_some hpage, List.filter_cons_of_pos hemits.symm, List.flatMap_cons,
        List.length_append, ih, length_methodLines_of_selectedPage? hpage]
      rfl

end Pages

/-! ## Steps -/

/-- How the write of a page ended: with the file written, or with a failure. -/
structure Completion where
  /-- The page. -/
  page : Page
  /-- Why the file could not be written. -/
  cause? : Option FileFault
deriving DecidableEq, Repr

namespace Completion

/-- Whether the file was written. -/
def isWritten (c : Completion) : Bool :=
  c.cause?.isNone

/-- The failure, if the file was not written. -/
def failure? (directory : String) (c : Completion) : Option WriteFailure :=
  c.cause?.map fun cause => ⟨c.page.path directory, cause⟩

/-- Each write that has ended was a success or a failure. -/
lemma countP_isWritten_add_length_failures (directory : String) (trace : List Completion) :
    trace.countP isWritten + (trace.filterMap (failure? directory)).length = trace.length := by
  rw [List.length_filterMap_eq_countP, List.length_eq_countP_add_countP isWritten]
  congr 2
  funext c
  cases hcause : c.cause? <;> simp [isWritten, failure?, hcause]

end Completion

/-- A dump on the way, from the time on when its module is loaded and its directory is there. -/
structure Progress where
  /-- The types that it has not come to. -/
  types : List TypeInfo
  /-- The pages that are handed on and whose writes have not ended. -/
  pending : List Page := []
  /-- How many methods were counted. -/
  methods : ℕ := 0
  /-- How many types with a page were counted. -/
  classes : ℕ := 0
  /-- What became of the writes that have ended. -/
  outcome : WriteOutcome := ⟨0, []⟩
  /-- The files. -/
  files : FileTree

/-- All types were passed and all writes have ended. -/
def Progress.IsComplete (s : Progress) : Prop :=
  s.types = [] ∧ s.pending = []

section Dynamics

variable (filters : Filters) (directory : String)

/-- One step of a dump. It may be the next one in the order of types or the end of any write that is
pending. A write takes place at once: when it fails, no file has changed. -/
inductive Step : Progress → Option Completion → Progress → Prop where
  /-- A type without a page is passed. -/
  | pass {s : Progress} {t : TypeInfo} {types : List TypeInfo} (htypes : s.types = t :: types)
    (hpage : selectedPage? filters t = none) : Step s none { s with types }
  /-- The page of a type is counted and handed on. -/
  | dispatch {s : Progress} {t : TypeInfo} {types : List TypeInfo} {page : Page}
    (htypes : s.types = t :: types) (hpage : selectedPage? filters t = some page) :
    Step s none { s with
      types
      pending := page :: s.pending
      methods := s.methods + page.methodLines.length
      classes := s.classes + 1 }
  /-- A page is written. -/
  | write {s : Progress} {page : Page} {files : FileTree} (hpending : page ∈ s.pending)
    (hfiles : s.files.write (page.path directory) page.text.toUTF8 = .ok files) :
    Step s (some ⟨page, none⟩) { s with
      pending := s.pending.erase page
      outcome := { s.outcome with written := s.outcome.written + 1 }
      files }
  /-- A page cannot be written. -/
  | fail {s : Progress} {page : Page} (hpending : page ∈ s.pending) (cause : FileFault) :
    Step s (some ⟨page, some cause⟩) { s with
      pending := s.pending.erase page
      outcome := { s.outcome with
        failures := s.outcome.failures ++ [⟨page.path directory, cause⟩] } }

/-- Any number of steps, with the writes that end on the way in their order. -/
inductive Run : Progress → List Completion → Progress → Prop where
  /-- No step. -/
  | refl (s : Progress) : Run s [] s
  /-- One more step. -/
  | tail {s s' s'' : Progress} {trace : List Completion} {ended? : Option Completion}
    (hrun : Run s trace s') (hstep : Step filters directory s' ended? s'') :
    Run s (trace ++ ended?.toList) s''

/-! ## What a dump has done -/

/-- The page that was written last into the file at a place. -/
def lastWritten? (files : FileTree) (trace : List Completion) (place : Place) : Option Page :=
  ((trace.filter fun c =>
    c.isWritten ∧ files.target? (c.page.path directory) = some place).getLast?).map
      Completion.page

/-- What a dump has done agrees with the types that it has passed and with the writes that have
ended, if it started with the given files. -/
structure Progress.Accords (passed : List TypeInfo) (files : FileTree) (trace : List Completion)
    (s : Progress) : Prop where
  /-- Each page of a type that was passed is pending, or its write has ended. -/
  pages : (trace.map Completion.page ++ s.pending).Perm (selectedPages filters passed)
  /-- Methods were counted on these pages. -/
  methods : s.methods = methodTotal (selectedPages filters passed)
  /-- These pages were counted. -/
  classes : s.classes = (selectedPages filters passed).length
  /-- The pages that were written are counted. -/
  written : s.outcome.written = trace.countP Completion.isWritten
  /-- The failures are those of the other writes, in the order in which these have ended. -/
  failures : s.outcome.failures = trace.filterMap (Completion.failure? directory)
  /-- The targets of files have not moved. -/
  targets : ∀ path, s.files.target? path = files.target? path
  /-- A file holds the page that was written into it last, or what it held at the start. -/
  content : ∀ place, s.files.content? place =
    (((lastWritten? directory files trace place).map fun page => page.text.toUTF8) <|>
      files.content? place)

end Dynamics

variable {filters : Filters} {directory : String} {files : FileTree} {trace : List Completion} in
/-- The page that was written last into a file is one of those whose target is the file. -/
lemma exists_mem_of_lastWritten? {place : Place} {page : Page}
    (h : lastWritten? directory files trace place = some page) :
    page ∈ trace.map Completion.page ∧ files.target? (page.path directory) = some place := by
  obtain ⟨c, hlast, rfl⟩ := Option.map_eq_some_iff.mp h
  obtain ⟨hmem, hc⟩ := List.mem_filter.mp (List.mem_of_getLast? hlast)
  exact ⟨List.mem_map_of_mem hmem, (of_decide_eq_true hc).2⟩

/-! ## Agreement -/

/-- One more type adds its page, if it has one. -/
lemma selectedPages_append_singleton (filters : Filters) (types : List TypeInfo) (t : TypeInfo) :
    selectedPages filters (types ++ [t]) =
      selectedPages filters types ++ (selectedPage? filters t).toList := by
  rw [selectedPages, List.filterMap_append]
  cases hpage : selectedPage? filters t <;> simp [selectedPages, hpage]

/-- One more page adds the lines of its methods. -/
lemma methodTotal_append_singleton (pages : List Page) (page : Page) :
    methodTotal (pages ++ [page]) = methodTotal pages + page.methodLines.length := by
  simp [methodTotal]

/-- One more completion leaves its page at the target, if it was written. -/
lemma lastWritten?_append_singleton (directory : String) (files : FileTree)
    (trace : List Completion) (c : Completion) (place : Place) :
    lastWritten? directory files (trace ++ [c]) place =
      if c.isWritten ∧ files.target? (c.page.path directory) = some place then some c.page
      else lastWritten? directory files trace place := by
  unfold lastWritten?
  rw [List.filter_append]
  split_ifs with h
  · rw [List.filter_cons_of_pos (by simpa using h)]
    simp
  · rw [List.filter_cons_of_neg (by simpa using h)]
    simp

namespace Progress.Accords

variable {filters : Filters} {directory : String} {passed : List TypeInfo} {files : FileTree}
  {trace : List Completion} {s s' : Progress}

/-- At the start, nothing was done. -/
lemma start (types : List TypeInfo) : Accords filters directory [] files [] { types, files } where
  pages := .refl _
  methods := rfl
  classes := rfl
  written := rfl
  failures := rfl
  targets _ := rfl
  content _ := rfl

/-- A page that ends is one page less that is pending, and one more that has ended. -/
lemma perm_of_mem {page : Page} {ended : Completion} (hpage : ended.page = page)
    (hpending : page ∈ s.pending) :
    ((trace ++ [ended]).map Completion.page ++ s.pending.erase page).Perm
      (trace.map Completion.page ++ s.pending) := by
  rw [List.map_append, List.append_assoc, List.map_singleton, hpage]
  exact (List.perm_cons_erase hpending).symm.append_left _

/-- **Every step keeps what was done in agreement.** -/
lemma step {ended? : Option Completion} (h : Accords filters directory passed files trace s)
    (hstep : Step filters directory s ended? s') :
    ∃ passed', passed' ++ s'.types = passed ++ s.types ∧
      Accords filters directory passed' files (trace ++ ended?.toList) s' := by
  cases hstep with
  | @pass t types htypes hpage =>
    refine ⟨passed ++ [t], by rw [htypes, List.append_assoc]; rfl, ?_⟩
    rw [Option.toList_none, List.append_nil]
    have hpages : selectedPages filters (passed ++ [t]) = selectedPages filters passed := by
      rw [selectedPages_append_singleton, hpage, Option.toList_none, List.append_nil]
    exact {
      pages := hpages ▸ h.pages
      methods := hpages ▸ h.methods
      classes := hpages ▸ h.classes
      written := h.written
      failures := h.failures
      targets := h.targets
      content := h.content }
  | @dispatch t types page htypes hpage =>
    refine ⟨passed ++ [t], by rw [htypes, List.append_assoc]; rfl, ?_⟩
    rw [Option.toList_none, List.append_nil]
    have hpages : selectedPages filters (passed ++ [t]) =
        selectedPages filters passed ++ [page] := by
      rw [selectedPages_append_singleton, hpage, Option.toList_some]
    refine ⟨?_, ?_, ?_, h.written, h.failures, h.targets, h.content⟩
    · rw [hpages]
      apply List.perm_middle.trans
      apply (h.pages.cons page).trans
      exact (List.perm_append_singleton page _).symm
    · rw [hpages, methodTotal_append_singleton, ← h.methods]
    · rw [hpages, List.length_append, ← h.classes]
      rfl
  | @write page files' hpending hfiles =>
    refine ⟨passed, rfl, ?_⟩
    rw [Option.toList_some]
    obtain ⟨place, htarget, rfl⟩ := FileTree.write_eq_ok_iff.mp hfiles
    refine ⟨(perm_of_mem rfl hpending).trans h.pages, h.methods, h.classes, ?_, ?_, ?_, ?_⟩
    · rw [List.countP_append, ← h.written]
      rfl
    · rw [List.filterMap_append, ← h.failures]
      exact (List.append_nil _).symm
    · intro path
      rw [FileTree.target?_put, h.targets]
    · intro place'
      rw [FileTree.content?_put, lastWritten?_append_singleton, h.content place']
      rw [h.targets] at htarget
      by_cases heq : place = place'
      · rw [if_pos heq, if_pos ⟨rfl, heq ▸ htarget⟩]
        rfl
      · rw [if_neg heq, if_neg]
        rintro ⟨-, hother⟩
        exact heq (Option.some.inj (htarget.symm.trans hother))
  | @fail page hpending cause =>
    refine ⟨passed, rfl, ?_⟩
    rw [Option.toList_some]
    refine ⟨(perm_of_mem rfl hpending).trans h.pages, h.methods, h.classes, ?_, ?_, h.targets, ?_⟩
    · rw [List.countP_append, ← h.written]
      rfl
    · rw [List.filterMap_append, ← h.failures]
      rfl
    · intro place
      rw [lastWritten?_append_singleton, if_neg, h.content place]
      rintro ⟨hwritten, -⟩
      cases hwritten

/-- Each page that was counted is written, or has failed, or is pending. -/
lemma accounted (h : Accords filters directory passed files trace s) :
    s.outcome.written + s.outcome.failures.length + s.pending.length = s.classes := by
  rw [h.written, h.failures, Completion.countP_isWritten_add_length_failures, h.classes,
    ← h.pages.length_eq, List.length_append, List.length_map]

/-- In the end, each page that was counted is written or has failed. -/
lemma accounted_of_isComplete (h : Accords filters directory passed files trace s)
    (hcomplete : s.IsComplete) :
    s.outcome.written + s.outcome.failures.length = s.classes := by
  have haccounted := h.accounted
  rwa [hcomplete.2, List.length_nil, Nat.add_zero] at haccounted

end Progress.Accords

/-- **What every run has done agrees with the types that it has passed**, from the start on.

**Proof sketch.** By induction on the steps, each of which keeps the agreement. -/
lemma accords_of_run {filters : Filters} {directory : String} {types : List TypeInfo}
    {files : FileTree} {trace : List Completion} {s : Progress}
    (h : Run filters directory { types, files } trace s) :
    ∃ passed, passed ++ s.types = types ∧
      Progress.Accords filters directory passed files trace s := by
  induction h with
  | refl => exact ⟨[], rfl, .start types⟩
  | tail _ hstep ih =>
    obtain ⟨passed, htypes, haccords⟩ := ih
    obtain ⟨passed', htypes', haccords'⟩ := haccords.step hstep
    exact ⟨passed', htypes'.trans htypes, haccords'⟩

/-- When a dump is complete, all types were passed. -/
lemma accords_of_isComplete {filters : Filters} {directory : String} {types : List TypeInfo}
    {files : FileTree} {trace : List Completion} {s : Progress}
    (h : Run filters directory { types, files } trace s) (hcomplete : s.IsComplete) :
    Progress.Accords filters directory types files trace s := by
  obtain ⟨passed, htypes, haccords⟩ := accords_of_run h
  rw [hcomplete.1, List.append_nil] at htypes
  exact htypes ▸ haccords

/-! ## Orders of writes -/

section Orders

variable {filters : Filters} {directory : String}

/-- One run after another. -/
lemma Run.trans {s s' s'' : Progress} {trace trace' : List Completion}
    (h : Run filters directory s trace s') (h' : Run filters directory s' trace' s'') :
    Run filters directory s (trace ++ trace') s'' := by
  induction h' with
  | refl => rwa [List.append_nil]
  | tail _ hstep ih =>
    rw [← List.append_assoc]
    exact ih.tail hstep

/-- One step and then a run. -/
lemma Run.head {s s' s'' : Progress} {trace : List Completion} {ended? : Option Completion}
    (hstep : Step filters directory s ended? s') (h : Run filters directory s' trace s'') :
    Run filters directory s (ended?.toList ++ trace) s'' :=
  ((Run.refl s).tail hstep).trans h

variable (filters directory) in
/-- A dump may pass all types before any write ends. -/
lemma exists_run_to_last_type (s : Progress) :
    ∃ s', Run filters directory s [] s' ∧ s'.types = [] ∧
      s'.pending.Perm (selectedPages filters s.types ++ s.pending) ∧ s'.files = s.files ∧
      s'.outcome = s.outcome := by
  obtain ⟨types, pending, methods, classes, outcome, files⟩ := s
  induction types generalizing pending methods classes with
  | nil => exact ⟨_, .refl _, rfl, .refl _, rfl, rfl⟩
  | cons t types ih =>
    cases hpage : selectedPage? filters t with
    | none =>
      obtain ⟨s', hrun, htypes, hpending, hfiles, houtcome⟩ := ih pending methods classes
      have hpages : selectedPages filters (t :: types) = selectedPages filters types :=
        List.filterMap_cons_none hpage
      exact ⟨s', .head (.pass rfl hpage) hrun, htypes, hpages ▸ hpending, hfiles, houtcome⟩
    | some page =>
      obtain ⟨s', hrun, htypes, hpending, hfiles, houtcome⟩ :=
        ih (page :: pending) (methods + page.methodLines.length) (classes + 1)
      have hpages : selectedPages filters (t :: types) = page :: selectedPages filters types :=
        List.filterMap_cons_some hpage
      refine ⟨s', .head (.dispatch rfl hpage) hrun, htypes, hpending.trans ?_, hfiles, houtcome⟩
      show (selectedPages filters types ++ page :: pending).Perm
        (selectedPages filters (t :: types) ++ pending)
      rw [hpages]
      exact List.perm_middle

/-- The pending writes may end in any order, and each of them with any failure. -/
lemma exists_run_of_pending {trace : List Completion} (s : Progress)
    (hpending : s.pending.Perm (trace.map Completion.page))
    (htargets : ∀ c ∈ trace, c.isWritten → (s.files.target? (c.page.path directory)).isSome) :
    ∃ s', Run filters directory s trace s' ∧ s'.types = s.types ∧ s'.pending = [] := by
  induction trace generalizing s with
  | nil => exact ⟨s, .refl s, rfl, hpending.eq_nil⟩
  | cons c trace ih =>
    obtain ⟨page, cause?⟩ := c
    have hpage : page ∈ s.pending := hpending.mem_iff.mpr List.mem_cons_self
    have hrest : (s.pending.erase page).Perm (trace.map Completion.page) :=
      (hpending.erase page).trans (by simp)
    have htail : ∀ c ∈ trace, c.isWritten → (s.files.target? (c.page.path directory)).isSome :=
      fun c hc => htargets c (List.mem_cons_of_mem _ hc)
    cases cause? with
    | none =>
      obtain ⟨place, hplace⟩ :=
        Option.isSome_iff_exists.mp (htargets ⟨page, none⟩ List.mem_cons_self rfl)
      have hwrite : s.files.write (page.path directory) page.text.toUTF8 =
          .ok (s.files.put place page.text.toUTF8) :=
        FileTree.write_eq_ok_iff.mpr ⟨place, hplace, rfl⟩
      have hmoved : ∀ c ∈ trace, c.isWritten →
          ((s.files.put place page.text.toUTF8).target? (c.page.path directory)).isSome := by
        intro c hc hwritten
        rw [FileTree.target?_put]
        exact htail c hc hwritten
      obtain ⟨s', hrun, htypes, hnone⟩ := ih
        { s with
          pending := s.pending.erase page
          outcome := { s.outcome with written := s.outcome.written + 1 }
          files := s.files.put place page.text.toUTF8 } hrest hmoved
      exact ⟨s', .head (.write hpage hwrite) hrun, htypes, hnone⟩
    | some cause =>
      obtain ⟨s', hrun, htypes, hnone⟩ := ih
        { s with
          pending := s.pending.erase page
          outcome := { s.outcome with
            failures := s.outcome.failures ++ [⟨page.path directory, cause⟩] } } hrest htail
      exact ⟨s', .head (.fail hpage cause) hrun, htypes, hnone⟩

end Orders

end TypeInventory
