import TypeInventory.Proofs.Output.Schedules

set_option relaxedAutoImplicit false
set_option autoImplicit false

/-!
# Dumps from start to end

A dump fails before it has touched anything, or it ends when all types were passed and all writes
have ended. Dumping one page after another is one of the orders that the writes may take.

## Main definitions

* `DumpReport` — what a dump reports.
* `Dumps` — dumps from start to end, with writes in any order.
* `Provides` — providers whose result is given and that change no file.
* `DumpReport.Accounts` — a report and files that agree with a module and with the ends of writes.

## Main results

* `exists_run_writePages` — writing pages one after another is a run.
* `dumps_dump` — a dump that writes its pages one after another is one of the dumps.
* `dumps_in_any_order` — what all dumps have in common.
-/

namespace TypeInventory

/-! ## Dumps -/

/-- What a dump reports. -/
structure DumpReport where
  /-- The name of the module. -/
  module : String
  /-- How many methods are on the pages. -/
  methods : ℕ
  /-- How many pages there are. -/
  classes : ℕ
  /-- Where the pages went. -/
  outputDirectory : String
  /-- What became of the pages. -/
  outcome : WriteOutcome
  /-- What went wrong while the module was loaded. -/
  diagnostics : List Diagnostic

/-- What the summary of a dump reports. -/
def DumpSummary.report (s : DumpSummary) : DumpReport where
  module := s.module
  methods := s.methods
  classes := s.classes
  outputDirectory := s.outputDirectory
  outcome := s.outcome
  diagnostics := s.diagnostics

/-- Dumps from start to end, with the writes in the order in which they end, the result and the
files that are left. What comes of loading the module is given; loading changes no file. The log is
left out, as it is the host that decides whether it is kept in a file. -/
inductive Dumps (load : Except Fault LoadedModule) (directory path : String) (filters : Filters)
    (files : FileTree) : List Completion → Except Fault DumpReport → FileTree → Prop where
  /-- There is no such file. -/
  | notFound (hfile : files.isFile path = false) :
    Dumps load directory path filters files [] (.error (.moduleNotFound path)) files
  /-- The module cannot be loaded. -/
  | notLoaded {e : Fault} (hfile : files.isFile path = true) (hload : load = .error e) :
    Dumps load directory path filters files [] (.error e) files
  /-- There can be no such directory. -/
  | notPrepared {loaded : LoadedModule} {e : FileFault} (hfile : files.isFile path = true)
    (hload : load = .ok loaded) (hprepare : (files.prepare directory).1 = .error e) :
    Dumps load directory path filters files [] (.error (.file e)) (files.prepare directory).2
  /-- All types were passed, and all writes have ended. -/
  | done {loaded : LoadedModule} {trace : List Completion} {s : Progress}
    (hfile : files.isFile path = true) (hload : load = .ok loaded)
    (hprepare : (files.prepare directory).1 = .ok ())
    (hrun : Run filters directory
      { types := loaded.types, files := (files.prepare directory).2 } trace s)
    (hcomplete : s.IsComplete) :
    Dumps load directory path filters files trace
      (.ok ⟨loaded.name, s.methods, s.classes, directory, s.outcome, loaded.diagnostics⟩) s.files

/-! ## One page after another -/

section Sequence

variable {directory : String}

/-- Two steps of a session in a row, of which the first may fail. -/
lemma run_bind {α β : Type} (x : ExceptT Fault (StateM Session) α)
    (f : α → ExceptT Fault (StateM Session) β) (s : Session) :
    (x >>= f).run s =
      match x.run s with
      | (.ok a, s') => (f a).run s'
      | (.error e, s') => (.error e, s') := by
  show (ExceptT.bindCont f (x.run s).1 : StateM Session _) (x.run s).2 = _
  rcases x.run s with ⟨_ | a, s'⟩ <;> rfl

/-- A step of a session that cannot fail. -/
lemma run_lift {α : Type} (x : StateM Session α) (s : Session) :
    (ExceptT.lift x : ExceptT Fault (StateM Session) α).run s = (.ok (x s).1, (x s).2) := rfl

/-- What only tells the log: in a quiet session, it neither fails nor changes a file. -/
def OnlyTells (x : ExceptT Fault (StateM Session) Unit) : Prop :=
  ∀ s : Session, s.IsQuiet → ∃ s', x.run s = (.ok (), s') ∧ s'.files = s.files ∧ s'.IsQuiet

lemma onlyTells_log (entry : LogEntry) : OnlyTells (Host.log entry) :=
  fun s hquiet => ⟨s.tell entry, rfl, Session.files_tell hquiet entry⟩

/-- Telling the log, and then another step. -/
lemma exists_run_bind_of_onlyTells {β : Type} {x : ExceptT Fault (StateM Session) Unit}
    (hx : OnlyTells x) (f : Unit → ExceptT Fault (StateM Session) β) {s : Session}
    (hquiet : s.IsQuiet) :
    ∃ s', (x >>= f).run s = (f ()).run s' ∧ s'.files = s.files ∧ s'.IsQuiet := by
  obtain ⟨s', hrun, hs'⟩ := hx s hquiet
  refine ⟨s', ?_, hs'⟩
  rw [run_bind, hrun]

/-- Telling the log, entry by entry. -/
lemma onlyTells_forM {α : Type} {f : α → ExceptT Fault (StateM Session) Unit}
    (hf : ∀ a, OnlyTells (f a)) (as : List α) : OnlyTells (as.forM f) := by
  induction as with
  | nil => exact fun s hquiet => ⟨s, rfl, rfl, hquiet⟩
  | cons a as ih =>
    intro s hquiet
    obtain ⟨s', hrun, hfiles, hquiet'⟩ :=
      exists_run_bind_of_onlyTells (hf a) (fun _ => as.forM f) hquiet
    obtain ⟨s'', hrun', hfiles', hquiet''⟩ := ih s' hquiet'
    exact ⟨s'', hrun.trans hrun', hfiles'.trans hfiles, hquiet''⟩

/-- Creating the directory of the output. -/
lemma run_prepareOutput (s : Session) :
    (prepareOutput directory : ExceptT Fault (StateM Session) Unit).run s =
      ((s.files.prepare directory).1.mapError Fault.file,
        { s with files := (s.files.prepare directory).2 }) := by
  have hlift : (ExceptT.lift (createDirectories directory) :
      ExceptT Fault (StateM Session) _).run s = _ := run_lift _ s
  rw [Session.run_createDirectories] at hlift
  show ((ExceptT.lift (createDirectories directory) :
    ExceptT Fault (StateM Session) _) >>= _).run s = _
  rw [run_bind, hlift]
  cases (s.files.prepare directory).1 <;> rfl

/-- Writing one page. -/
lemma run_writePage (page : Page) (s : Session) :
    (writePage directory page : ExceptT Fault (StateM Session) _).run s =
      match s.files.write (page.path directory) page.text.toUTF8 with
      | .ok files =>
        (.ok none, Session.tell { s with files } ⟨.debug, s!"Wrote {page.path directory}"⟩)
      | .error e =>
        (.ok (some ⟨page.path directory, e⟩),
          s.tell ⟨.error, s!"Failed to write {page.path directory}: {e.message}"⟩) := by
  have hwrite : (Host.writeFile (page.path directory) page.text :
      ExceptT Fault (StateM Session) _).run s = _ :=
    run_lift (Session.change fun files => files.write (page.path directory) page.text.toUTF8) s
  unfold writePage
  rw [run_bind, hwrite, Session.run_change]
  cases s.files.write (page.path directory) page.text.toUTF8 with
  | ok files => exact run_bind _ _ _
  | error e => exact run_bind _ _ _

variable (filters : Filters) (directory) in
/-- Writing a page ends its write, if it is pending. -/
lemma exists_step_writePage {page : Page} {session : Session}
    (hquiet : session.IsQuiet) {s : Progress} (hfiles : s.files = session.files)
    (hpending : page ∈ s.pending) :
    ∃ ended session' s',
      (writePage directory page : ExceptT Fault (StateM Session) _).run session =
        (.ok (ended.failure? directory), session') ∧ session'.IsQuiet ∧
      Step filters directory s (some ended) s' ∧ s'.types = s.types ∧
      s'.pending = s.pending.erase page ∧ s'.files = session'.files := by
  rw [run_writePage, ← hfiles]
  cases hwrite : s.files.write (page.path directory) page.text.toUTF8 with
  | ok files =>
    obtain ⟨htold, hquiet'⟩ := Session.files_tell (s := { session with files }) hquiet
      ⟨.debug, s!"Wrote {page.path directory}"⟩
    exact ⟨⟨page, none⟩, _, _, rfl, hquiet', .write hpending hwrite, rfl, rfl, htold.symm⟩
  | error e =>
    obtain ⟨htold, hquiet'⟩ := Session.files_tell hquiet
      ⟨.error, s!"Failed to write {page.path directory}: {e.message}"⟩
    exact ⟨⟨page, some e⟩, _, _, rfl, hquiet', .fail hpending e, rfl, rfl,
      hfiles.trans htold.symm⟩

/-- **Writing pages one after another is a run** that ends all pending writes. -/
lemma exists_run_writePages {filters : Filters} {pages : List Page} {session : Session}
    (hquiet : session.IsQuiet) {s : Progress} (hfiles : s.files = session.files)
    (htypes : s.types = []) (hpending : s.pending.Perm pages) :
    ∃ trace session' s',
      (pages.filterMapM (writePage directory) : ExceptT Fault (StateM Session) _).run session =
        (.ok (trace.filterMap (Completion.failure? directory)), session') ∧ session'.IsQuiet ∧
      Run filters directory s trace s' ∧ s'.IsComplete ∧ s'.files = session'.files := by
  induction pages generalizing session s with
  | nil => exact ⟨[], session, s, rfl, hquiet, .refl s, ⟨htypes, hpending.eq_nil⟩, hfiles⟩
  | cons page pages ih =>
    obtain ⟨ended, session₁, s₁, hwrite, hquiet₁, hstep, htypes₁, hpending₁, hfiles₁⟩ :=
      exists_step_writePage directory filters hquiet hfiles
        (hpending.mem_iff.mpr List.mem_cons_self)
    have hrest : s₁.pending.Perm pages := by
      rw [hpending₁]
      exact (hpending.erase page).trans (by simp)
    obtain ⟨trace, session₂, s₂, hwrites, hquiet₂, hrun, hcomplete, hfiles₂⟩ :=
      ih hquiet₁ hfiles₁ (htypes₁.trans htypes) hrest
    refine ⟨ended :: trace, session₂, s₂, ?_, hquiet₂, .head hstep hrun, hcomplete, hfiles₂⟩
    rw [List.filterMapM_cons, run_bind, hwrite, List.filterMap_cons]
    cases ended.failure? directory with
    | none => exact hwrites
    | some failure =>
      show (pages.filterMapM (writePage directory) >>= fun failures =>
        (pure (failure :: failures) : ExceptT Fault (StateM Session) _)).run session₁ = _
      rw [run_bind, hwrites]
      rfl

/-- What a dump does once its module is loaded and its directory is there. -/
def finishDump (directory : String) (filters : Filters) (loaded : LoadedModule) :
    ExceptT Fault (StateM Session) DumpSummary := do
  (loaded.types.flatMap (typeLog filters)).forM Host.log
  let pages := selectedPages filters loaded.types
  let outcome ← writePages directory pages
  let summary : DumpSummary := ⟨loaded.name, pages, directory, outcome, loaded.diagnostics⟩
  Host.log ⟨.info, s!"Total {summary.methods} methods found in {summary.classes} classes"⟩
  Host.log ⟨.info, s!"Results saved in {directory}"⟩
  return summary

variable {load : Except Fault LoadedModule} {path : String} (filters : Filters)

/-- **Writing the pages one after another ends a dump**, from the time on when its directory is
there.

**Proof sketch.** A run may pass all types before any write ends, and go on with the writes in the
order of the pages. What was counted agrees with the types of the module, which were all passed. -/
lemma dumps_finishDump {files : FileTree} {loaded : LoadedModule} {s : Session}
    (hfile : files.isFile path = true) (hload : load = .ok loaded)
    (hprepare : (files.prepare directory).1 = .ok ())
    (hfiles : s.files = (files.prepare directory).2) (hquiet : s.IsQuiet) :
    ∃ trace, Dumps load directory path filters files trace
      (((finishDump directory filters loaded).run s).1.map DumpSummary.report)
      ((finishDump directory filters loaded).run s).2.files := by
  obtain ⟨p₁, hpass, htypes, hpending, hunchanged, -⟩ :=
    exists_run_to_last_type filters directory
      { types := loaded.types, files := (files.prepare directory).2 }
  rw [List.append_nil] at hpending
  rcases hresult : (finishDump directory filters loaded).run s with ⟨result, final⟩
  show ∃ trace, Dumps load directory path filters files trace (result.map DumpSummary.report)
    final.files
  unfold finishDump at hresult
  obtain ⟨s₁, htold, hfiles₁, hquiet₁⟩ :=
    exists_run_bind_of_onlyTells (onlyTells_forM onlyTells_log _) _ hquiet
  obtain ⟨trace, s₂, p₂, hwrites, hquiet₂, hrun, hcomplete, hfiles₂⟩ :=
    exists_run_writePages hquiet₁ ((hunchanged.trans hfiles.symm).trans hfiles₁.symm) htypes
      hpending
  have hall := hpass.trans hrun
  have haccords := accords_of_isComplete hall hcomplete
  have hfailures : trace.filterMap (Completion.failure? directory) = p₂.outcome.failures :=
    haccords.failures.symm
  have hwritten : (selectedPages filters loaded.types).length - p₂.outcome.failures.length =
      p₂.outcome.written := by
    rw [← haccords.classes, ← haccords.accounted_of_isComplete hcomplete, Nat.add_sub_cancel_right]
  have hpages : (writePages directory (selectedPages filters loaded.types) :
      ExceptT Fault (StateM Session) _).run s₁ = (.ok p₂.outcome, s₂) := by
    unfold writePages
    rw [run_bind, hwrites, hfailures]
    simp only
    rw [hwritten]
    rfl
  rw [htold, run_bind, hpages] at hresult
  simp only at hresult
  obtain ⟨s₃, htold, hfiles₃, hquiet₃⟩ := exists_run_bind_of_onlyTells (onlyTells_log _) _ hquiet₂
  rw [htold] at hresult
  obtain ⟨s₄, htold, hfiles₄, -⟩ := exists_run_bind_of_onlyTells (onlyTells_log _) _ hquiet₃
  rw [htold] at hresult
  cases hresult
  refine ⟨[] ++ trace, ?_⟩
  rw [hfiles₄, hfiles₃, ← hfiles₂]
  show Dumps load directory path filters files ([] ++ trace)
    (.ok ⟨loaded.name, methodTotal (selectedPages filters loaded.types),
      (selectedPages filters loaded.types).length, directory, p₂.outcome, loaded.diagnostics⟩) _
  rw [← haccords.methods, ← haccords.classes]
  exact .done hfile hload hprepare hall hcomplete

/-- A provider that loads a module in quiet sessions with the given files, always with the same
result and without any change of a file. -/
def Provides (provider : String → ExceptT Fault (StateM Session) LoadedModule) (path : String)
    (files : FileTree) (load : Except Fault LoadedModule) : Prop :=
  ∀ s : Session, s.files = files → s.IsQuiet →
    ∃ s', (provider path).run s = (load, s') ∧ s'.files = files ∧ s'.IsQuiet

variable {filters} in
/-- **A dump that writes its pages one after another is one of the dumps with any order.** -/
lemma dumps_dump {provider : String → ExceptT Fault (StateM Session) LoadedModule} {s : Session}
    (hprovider : Provides provider path s.files load) (hquiet : s.IsQuiet) :
    ∃ trace, Dumps load directory path filters s.files trace
      (((dump provider directory path filters).run s).1.map DumpSummary.report)
      ((dump provider directory path filters).run s).2.files := by
  rcases hresult : (dump provider directory path filters).run s with ⟨result, final⟩
  show ∃ trace, Dumps load directory path filters s.files trace (result.map DumpSummary.report)
    final.files
  have hisFile : (Host.isFile path : ExceptT Fault (StateM Session) Bool).run s =
      (.ok (s.files.isFile path), s) := rfl
  unfold dump at hresult
  rw [run_bind, hisFile] at hresult
  simp only at hresult
  by_cases hfile : s.files.isFile path = true
  · rw [if_pos hfile] at hresult
    obtain ⟨s₁, htold, hfiles₁, hquiet₁⟩ := exists_run_bind_of_onlyTells (onlyTells_log _) _ hquiet
    obtain ⟨s₂, hloading, hfiles₂, hquiet₂⟩ := hprovider s₁ hfiles₁ hquiet₁
    rw [htold, run_bind, hloading] at hresult
    cases load with
    | error e =>
      cases hresult
      refine ⟨[], ?_⟩
      rw [hfiles₂]
      exact .notLoaded hfile rfl
    | ok loaded =>
      simp only at hresult
      obtain ⟨s₃, htold, hfiles₃, hquiet₃⟩ :=
        exists_run_bind_of_onlyTells (onlyTells_log _) _ hquiet₂
      rw [htold] at hresult
      obtain ⟨s₄, htold, hfiles₄, hquiet₄⟩ :=
        exists_run_bind_of_onlyTells (onlyTells_forM (fun _ => onlyTells_log _) _) _ hquiet₃
      rw [htold] at hresult
      obtain ⟨s₅, htold, hfiles₅, hquiet₅⟩ :=
        exists_run_bind_of_onlyTells (onlyTells_log _) _ hquiet₄
      -- So far the files are those of the start: the log and the provider have changed none.
      rw [htold, run_bind, run_prepareOutput, hfiles₅, hfiles₄, hfiles₃, hfiles₂] at hresult
      cases hprepare : (s.files.prepare directory).1 with
      | error e =>
        rw [hprepare] at hresult
        cases hresult
        exact ⟨[], .notPrepared hfile rfl hprepare⟩
      | ok _ =>
        rw [hprepare] at hresult
        change (finishDump directory filters loaded).run
          { s₅ with files := (s.files.prepare directory).2 } = _ at hresult
        obtain ⟨trace, hdumps⟩ := dumps_finishDump filters
          (s := { s₅ with files := (s.files.prepare directory).2 }) hfile rfl hprepare rfl hquiet₅
        rw [hresult] at hdumps
        exact ⟨trace, hdumps⟩
  · rw [if_neg hfile] at hresult
    obtain ⟨s₁, htold, hfiles₁, -⟩ := exists_run_bind_of_onlyTells (onlyTells_log _) _ hquiet
    rw [htold] at hresult
    cases hresult
    refine ⟨[], ?_⟩
    rw [hfiles₁]
    exact .notFound (Bool.eq_false_iff.mpr hfile)

end Sequence

/-! ## What all dumps have in common -/

/-- What a dump of a loaded module reports and leaves, if it started with the given files and its
writes have ended in the given order. -/
structure DumpReport.Accounts (directory : String) (filters : Filters) (types : List TypeInfo)
    (files : FileTree) (trace : List Completion) (report : DumpReport) (final : FileTree) :
    Prop where
  /-- The write of every page has ended, once for every type that has the page. -/
  pages : (trace.map Completion.page).Perm (selectedPages filters types)
  /-- The classes are the accepted types with an accepted member. -/
  classes : report.classes = types.countP filters.emits
  /-- The methods are the accepted ones of these types. -/
  methods : report.methods =
    ((types.filter filters.emits).map fun t => t.methods.countP filters.acceptsMethod).sum
  /-- Every page is counted as written or listed as a failure. -/
  accounted : report.outcome.written + report.outcome.failures.length = report.classes
  /-- Every page that was not written has one entry among the failures, with its path. -/
  failures : report.outcome.failures = trace.filterMap (Completion.failure? directory)
  /-- A file holds the text of the page that was written into it last. -/
  written : ∀ place page,
    lastWritten? directory (files.prepare directory).2 trace place = some page →
      final.content? place = some page.text.toUTF8
  /-- A file into which no page was written is as it was. -/
  unwritten : ∀ place, lastWritten? directory (files.prepare directory).2 trace place = none →
    final.content? place = files.content? place
  /-- A file that is the target of no page is as it was. -/
  untouched : ∀ place,
    (∀ page ∈ selectedPages filters types,
      (files.prepare directory).2.target? (page.path directory) ≠ some place) →
    final.content? place = files.content? place

section Common

variable {directory path : String} {filters : Filters} {files : FileTree}
  {trace : List Completion}

/-- What a complete dump has done is what its report and its files tell. -/
lemma accounts_of_isComplete {loaded : LoadedModule} {s : Progress}
    (hrun : Run filters directory
      { types := loaded.types, files := (files.prepare directory).2 } trace s)
    (hcomplete : s.IsComplete) :
    DumpReport.Accounts directory filters loaded.types files trace
      ⟨loaded.name, s.methods, s.classes, directory, s.outcome, loaded.diagnostics⟩ s.files := by
  have haccords := accords_of_isComplete hrun hcomplete
  have hpages : (trace.map Completion.page).Perm (selectedPages filters loaded.types) := by
    have hpages := haccords.pages
    rwa [hcomplete.2, List.append_nil] at hpages
  have hunwritten : ∀ place,
      lastWritten? directory (files.prepare directory).2 trace place = none →
        s.files.content? place = files.content? place := by
    intro place hnone
    rw [haccords.content, hnone, FileTree.content?_prepare]
    rfl
  refine {
    pages := hpages
    classes := haccords.classes.trans (length_selectedPages filters _)
    methods := haccords.methods.trans (methodTotal_selectedPages filters _)
    accounted := haccords.accounted_of_isComplete hcomplete
    failures := haccords.failures
    written := ?_
    unwritten := hunwritten
    untouched := ?_ }
  · intro place page hlast
    rw [haccords.content, hlast]
    rfl
  · intro place huntouched
    apply hunwritten
    by_contra hwritten
    obtain ⟨page, hlast⟩ := Option.ne_none_iff_exists'.mp hwritten
    obtain ⟨hmem, htarget⟩ := exists_mem_of_lastWritten? hlast
    exact huntouched page (hpages.mem_iff.mp hmem) htarget

/-- The writes of a dump may end in any order, each with the file written, if that can be, or with
any failure. -/
lemma exists_dumps {load : Except Fault LoadedModule} {loaded : LoadedModule}
    (hfile : files.isFile path = true) (hload : load = .ok loaded)
    (hprepare : (files.prepare directory).1 = .ok ())
    (hpages : (trace.map Completion.page).Perm (selectedPages filters loaded.types))
    (htargets : ∀ c ∈ trace, c.isWritten →
      ((files.prepare directory).2.target? (c.page.path directory)).isSome) :
    ∃ result final, Dumps load directory path filters files trace result final := by
  obtain ⟨s, hpass, htypes, hpending, hunchanged, -⟩ :=
    exists_run_to_last_type filters directory
      { types := loaded.types, files := (files.prepare directory).2 }
  rw [List.append_nil] at hpending
  rw [← show s.files = (files.prepare directory).2 from hunchanged] at htargets
  obtain ⟨s', hrun, htypes', hpending'⟩ :=
    exists_run_of_pending s (hpending.trans hpages.symm) htargets
  exact ⟨_, _, .done hfile hload hprepare (hpass.trans hrun) ⟨htypes'.trans htypes, hpending'⟩⟩

end Common

/-- **Dumps agree with their modules whatever the order of the writes is.** A dump without a file or
without a module fails with that error and changes nothing. Otherwise, once its directory is there,
it succeeds, and its totals, its failures and the files that it leaves are those of the selected
types. Every order of the writes and every set of failures is taken by some dump, and a dump that
writes its pages one after another takes one of them.

**Proof sketch.** What a dump has done agrees with the types that it has passed, step by step. When
the dump is complete, it has passed all of them and no write is pending. -/
theorem dumps_in_any_order (load : Except Fault LoadedModule) (directory path : String)
    (filters : Filters) (files : FileTree) :
    (∀ trace result final, Dumps load directory path filters files trace result final →
      (files.isFile path = false → result = .error (.moduleNotFound path) ∧ final = files) ∧
      (∀ e, files.isFile path = true → load = .error e → result = .error e ∧ final = files) ∧
      ∀ loaded, files.isFile path = true → load = .ok loaded →
        (∀ e, (files.prepare directory).1 = .error e → result = .error (.file e) ∧
          ∀ place, final.content? place = files.content? place) ∧
        ((files.prepare directory).1 = .ok () → ∃ report, result = .ok report ∧
          report.Accounts directory filters loaded.types files trace final)) ∧
    (∀ loaded trace, files.isFile path = true → load = .ok loaded →
      (files.prepare directory).1 = .ok () →
      (trace.map Completion.page).Perm (selectedPages filters loaded.types) →
      (∀ c ∈ trace, c.isWritten →
        ((files.prepare directory).2.target? (c.page.path directory)).isSome) →
      ∃ result final, Dumps load directory path filters files trace result final) ∧
    ∀ provider s, s.files = files → s.IsQuiet → Provides provider path files load →
      ∃ trace, Dumps load directory path filters files trace
        (((dump provider directory path filters).run s).1.map DumpSummary.report)
        ((dump provider directory path filters).run s).2.files := by
  refine ⟨fun trace result final h => ?_,
    fun loaded trace hfile hload hprepare hpages htargets =>
      exists_dumps hfile hload hprepare hpages htargets, ?_⟩
  · cases h with
    | notFound hfile =>
      simp [hfile]
    | notLoaded hfile hload =>
      simp [hfile, hload]
    | notPrepared hfile hload hprepare =>
      simp [hfile, hload, hprepare, FileTree.content?_prepare]
    | done hfile hload hprepare hrun hcomplete =>
      have haccounts := accounts_of_isComplete hrun hcomplete
      refine ⟨by simp [hfile], by simp [hload], fun loaded' _ hload' => ?_⟩
      obtain rfl := Except.ok.inj (hload.symm.trans hload')
      exact ⟨by simp [hprepare], fun _ => ⟨_, rfl, haccounts⟩⟩
  · rintro provider s rfl hquiet hprovider
    exact dumps_dump hprovider hquiet

/-! ### A shared file -/

/-- A module with three types. The names of the first two lead to the same file. -/
def sharingModule : LoadedModule where
  name := "Sharing"
  types :=
    [{ name := "A|", fullName := "Sharing.A|", methods := [{ name := "Run" }] },
      { name := "A?", fullName := "Sharing.A?"
        methods := [{ name := "get_X" }, { name := "Stop" }] },
      { name := "B", fullName := "Sharing.B", fields := [{ name := "x" }] }]
  diagnostics := []

/-- The file of the module, and no directory of output. -/
def sharingFiles : FileTree :=
  FileTree.put ∅ ⟨0, "sharing.dll"⟩ .empty

/-- The writes end from the last type to the first one, and that of the last type fails. -/
def sharingTrace : List Completion :=
  (selectedPages {} sharingModule.types).reverse.map fun page =>
    ⟨page, if page.name = "B" then some (.other "No space left on device (os error 28)") else none⟩

/-- A dump with these files, if loading the module gives `load`. -/
def dumpSharing (load : Except Fault LoadedModule) (directory path : String) :
    Except Fault DumpReport × FileTree :=
  let provider : String → ExceptT Fault (StateM Session) LoadedModule := fun _ => .mk (pure load)
  let (result, s) := (dump provider directory path {}).run { files := sharingFiles }
  (result.map DumpSummary.report, s.files)

/-- The three types by the general law: the shared file holds the page that was written last, which
is that of the first type, and the totals count all three. If the file of the module is missing, if
the module cannot be loaded, or if a file stands where the directory should be, then there is an
error and the files stay. -/
theorem dumps_sharingModule :
    (∃ report final,
      Dumps (.ok sharingModule) "out" "sharing.dll" {} sharingFiles sharingTrace (.ok report)
        final ∧
      report.classes = 3 ∧ report.methods = 2 ∧ report.outcome.written = 2 ∧
      report.outcome.failures =
        [⟨"out/B.txt", .other "No space left on device (os error 28)"⟩] ∧
      final.content? ⟨1, "A_.txt"⟩ =
        (sharingModule.types.head?.map fun t => (Page.ofType {} t).text.toUTF8) ∧
      final.content? ⟨1, "B.txt"⟩ = none ∧
      final.content? ⟨0, "sharing.dll"⟩ = some .empty) ∧
    dumpSharing (.ok sharingModule) "out" "missing.dll" =
      (.error (.moduleNotFound "missing.dll"), sharingFiles) ∧
    dumpSharing (.error .empty) "out" "sharing.dll" = (.error .empty, sharingFiles) ∧
    (dumpSharing (.ok sharingModule) "sharing.dll" "sharing.dll").1 =
      .error (.file .alreadyExists) := by
  have hfile : sharingFiles.isFile "sharing.dll" = true := rfl
  have hdumping : ∀ load directory path, ∃ trace, Dumps load directory path {} sharingFiles trace
      (dumpSharing load directory path).1 (dumpSharing load directory path).2 :=
    fun load directory path => (dumps_in_any_order load directory path {} sharingFiles).2.2
      (fun _ => .mk (pure load)) { files := sharingFiles } rfl rfl
      (fun s hfiles hquiet => ⟨s, rfl, hfiles, hquiet⟩)
  refine ⟨?_, ?_, ?_, ?_⟩
  · obtain ⟨hall, hevery, -⟩ :=
      dumps_in_any_order (.ok sharingModule) "out" "sharing.dll" {} sharingFiles
    have hprepare : (sharingFiles.prepare "out").1 = .ok () := rfl
    have hpages : (sharingTrace.map Completion.page).Perm
        (selectedPages {} sharingModule.types) := by
      unfold sharingTrace
      rw [List.map_map]
      exact (List.Perm.of_eq (List.map_id _)).trans (List.reverse_perm _)
    obtain ⟨result, final, hdumps⟩ := hevery sharingModule sharingTrace hfile rfl hprepare hpages
      (by decide +kernel)
    obtain ⟨-, -, hloaded⟩ := hall _ _ _ hdumps
    obtain ⟨report, rfl, haccounts⟩ := (hloaded _ hfile rfl).2 hprepare
    have hclasses : report.classes = 3 := haccounts.classes.trans rfl
    have hfailures : report.outcome.failures =
        [⟨"out/B.txt", .other "No space left on device (os error 28)"⟩] :=
      haccounts.failures.trans (by decide +kernel)
    have haccounted := haccounts.accounted
    rw [hclasses, hfailures] at haccounted
    refine ⟨report, final, hdumps, hclasses, haccounts.methods.trans rfl, Nat.succ.inj haccounted,
      hfailures, ?_, ?_, ?_⟩
    · exact haccounts.written _ _ (by decide +kernel)
    · exact haccounts.unwritten _ (by decide +kernel)
    · exact haccounts.untouched _ (by decide +kernel)
  · obtain ⟨trace, hdumps⟩ := hdumping (.ok sharingModule) "out" "missing.dll"
    obtain ⟨hnotFound, -⟩ := (dumps_in_any_order _ _ _ _ _).1 _ _ _ hdumps
    obtain ⟨hresult, hfinal⟩ := hnotFound rfl
    exact Prod.ext hresult hfinal
  · obtain ⟨trace, hdumps⟩ := hdumping (.error .empty) "out" "sharing.dll"
    obtain ⟨-, hnotLoaded, -⟩ := (dumps_in_any_order _ _ _ _ _).1 _ _ _ hdumps
    obtain ⟨hresult, hfinal⟩ := hnotLoaded .empty hfile rfl
    exact Prod.ext hresult hfinal
  · obtain ⟨trace, hdumps⟩ := hdumping (.ok sharingModule) "sharing.dll" "sharing.dll"
    obtain ⟨-, -, hloaded⟩ := (dumps_in_any_order _ _ _ _ _).1 _ _ _ hdumps
    exact ((hloaded sharingModule hfile rfl).1 .alreadyExists rfl).1

end TypeInventory
