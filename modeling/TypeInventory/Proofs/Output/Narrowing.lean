import TypeInventory.Proofs.Output.Dumping

set_option relaxedAutoImplicit false
set_option autoImplicit false

/-!
# Asking for longer parts of names

Who asks for a longer part of a name gets less: every page that is left is one of those for the
shorter part, with the same fields and some of the methods, and the pages keep their order. A page
may be lost in two ways, because its type is not accepted any more or because the last of its
methods is gone, and a blank part asks for nothing at all.

## Main definitions

* `Filters.IsNarrower` — filters that ask for longer parts of names.
* `Page.IsPartOf` — a page that lacks some methods of another one.

## Main results

* `Filters.IsNarrower.acceptsType`, `Filters.IsNarrower.acceptsMethod` — what narrower filters
  accept is accepted.
* `sublistForall₂_selectedPages` — pages under narrower filters are parts of some of the pages.
* `selectedPage?_ofInput`, `dump_ofInput` — leaving blank parts out changes nothing.
* `narrowing_removes_only` — narrower filters only remove output.
-/

namespace TypeInventory

/-- What holds a text holds all of its parts. -/
lemma Text.contains_trans {s t u : String} (hst : Text.contains s t = true)
    (htu : Text.contains t u = true) : Text.contains s u = true :=
  Text.contains_iff.mpr ((Text.contains_iff.mp htu).trans (Text.contains_iff.mp hst))

/-! ## Narrower filters -/

namespace Filters

/-- Whether the first part of a name is narrower than the second one: the second one is blank or
absent, or neither is, and the first one holds the second one. -/
def IsNarrowerPart (part' part : Option String) : Prop :=
  nonBlank part = none ∨
    ∃ s' ∈ nonBlank part', ∃ s ∈ nonBlank part, Text.contains s' s = true

instance (part' part : Option String) : Decidable (IsNarrowerPart part' part) :=
  inferInstanceAs (Decidable (_ ∨ _))

/-- Filters both of whose parts are narrower than those of other filters. -/
structure IsNarrower (filters' filters : Filters) : Prop where
  /-- The part of a type's name is narrower. -/
  typeName : IsNarrowerPart filters'.typeName filters.typeName
  /-- The part of a method's name is narrower. -/
  methodName : IsNarrowerPart filters'.methodName filters.methodName

namespace IsNarrower

variable {filters' filters : Filters} (h : filters'.IsNarrower filters)
include h

/-- A type that matches narrower filters matches. -/
lemma matchesType {t : TypeInfo} (ht : filters'.matchesType t = true) :
    filters.matchesType t = true := by
  unfold Filters.matchesType typeName? at *
  rcases h.typeName with hblank | ⟨s', hs', s, hs, hpart⟩
  · rw [hblank]
  · rw [Option.mem_def.mp hs'] at ht
    rw [Option.mem_def.mp hs]
    rw [Bool.or_eq_true] at ht ⊢
    exact ht.imp (Text.contains_trans · hpart) (Text.contains_trans · hpart)

/-- **A type that narrower filters accept is accepted.** -/
lemma acceptsType {t : TypeInfo} (ht : filters'.acceptsType t = true) :
    filters.acceptsType t = true := by
  simp only [Filters.acceptsType, Bool.and_eq_true] at ht ⊢
  exact ⟨⟨⟨h.matchesType ht.1.1.1, ht.1.1.2⟩, ht.1.2⟩, ht.2⟩

/-- **A method that narrower filters accept is accepted.** -/
lemma acceptsMethod {m : MethodInfo} (hm : filters'.acceptsMethod m = true) :
    filters.acceptsMethod m = true := by
  simp only [Filters.acceptsMethod, Bool.and_eq_true] at hm ⊢
  refine ⟨?_, hm.2⟩
  have hmatches := hm.1
  unfold matchesMethod methodName? at *
  rcases h.methodName with hblank | ⟨s', hs', s, hs, hpart⟩
  · rw [hblank]
  · rw [Option.mem_def.mp hs'] at hmatches
    rw [Option.mem_def.mp hs]
    exact Text.contains_trans hmatches hpart

/-- A type that has a page under narrower filters has one. -/
lemma emits {t : TypeInfo} (ht : filters'.emits t = true) : filters.emits t = true := by
  simp only [Filters.emits, Bool.and_eq_true, Bool.or_eq_true, List.any_eq_true] at ht ⊢
  refine ⟨h.acceptsType ht.1, ht.2.imp_left ?_⟩
  rintro ⟨m, hm, haccepts⟩
  exact ⟨m, hm, h.acceptsMethod haccepts⟩

end IsNarrower

end Filters

/-! ## Pages -/

/-- A type has the page of its accepted members, if it has one at all. -/
lemma selectedPage?_eq_some_iff {filters : Filters} {t : TypeInfo} {page : Page} :
    selectedPage? filters t = some page ↔
      filters.emits t = true ∧ page = Page.ofType filters t := by
  constructor
  · intro h
    refine ⟨by rw [← isSome_selectedPage?, h, Option.isSome_some], ?_⟩
    unfold selectedPage? at h
    split_ifs at h
    exact Page.eq_of_ofType?_eq_some h
  · rintro ⟨hemits, rfl⟩
    rw [← isSome_selectedPage?, Option.isSome_iff_exists] at hemits
    obtain ⟨page, hpage⟩ := hemits
    have haccepted := hpage
    unfold selectedPage? at haccepted
    split_ifs at haccepted
    rw [hpage, Page.eq_of_ofType?_eq_some haccepted]

/-- A page that agrees with another one, except that some methods may be missing. -/
structure Page.IsPartOf (page' page : Page) : Prop where
  /-- They are about types with the same name. -/
  name : page'.name = page.name
  /-- The types have the same full name. -/
  fullName : page'.fullName = page.fullName
  /-- They have the same token. -/
  token : page'.token = page.token
  /-- The fields are the same. -/
  fieldLines : page'.fieldLines = page.fieldLines
  /-- The methods of the first page are on the second one, in the same order. -/
  methodLines : page'.methodLines.Sublist page.methodLines

section Narrowing

variable {filters' filters : Filters} (h : filters'.IsNarrower filters)
include h

/-- The page of a type under narrower filters is a part of its page. -/
lemma isPartOf_ofType (t : TypeInfo) :
    (Page.ofType filters' t).IsPartOf (Page.ofType filters t) where
  name := rfl
  fullName := rfl
  token := rfl
  fieldLines := rfl
  methodLines :=
    (List.monotone_filter_right t.methods fun _ hm => h.acceptsMethod hm).map Page.methodLine

/-- **A type that has a page under narrower filters has a page**, of which that one is a part. -/
lemma exists_selectedPage?_of_isNarrower {t : TypeInfo} {page' : Page}
    (hpage : selectedPage? filters' t = some page') :
    ∃ page, selectedPage? filters t = some page ∧ page'.IsPartOf page := by
  obtain ⟨hemits, rfl⟩ := selectedPage?_eq_some_iff.mp hpage
  exact ⟨_, selectedPage?_eq_some_iff.mpr ⟨h.emits hemits, rfl⟩, isPartOf_ofType h t⟩

/-- **The pages under narrower filters are parts of some of the pages**, in the same order.

**Proof sketch.** By induction on the types. A type either loses its page or keeps a part of it. -/
lemma sublistForall₂_selectedPages (types : List TypeInfo) :
    List.SublistForall₂ Page.IsPartOf (selectedPages filters' types)
      (selectedPages filters types) := by
  induction types with
  | nil => exact .nil
  | cons t types ih =>
    unfold selectedPages at *
    cases hpage' : selectedPage? filters' t with
    | some page' =>
      obtain ⟨page, hpage, hpart⟩ := exists_selectedPage?_of_isNarrower h hpage'
      rw [List.filterMap_cons_some hpage', List.filterMap_cons_some hpage]
      exact .cons hpart ih
    | none =>
      rw [List.filterMap_cons_none hpage']
      cases hpage : selectedPage? filters t with
      | none => rwa [List.filterMap_cons_none hpage]
      | some page =>
        rw [List.filterMap_cons_some hpage]
        exact .cons_right ih

end Narrowing

/-! ## Totals -/

/-- Parts of some pages are at most as many and have at most as many methods. -/
lemma totals_le_of_sublistForall₂ {pages' pages : List Page}
    (h : List.SublistForall₂ Page.IsPartOf pages' pages) :
    pages'.length ≤ pages.length ∧ methodTotal pages' ≤ methodTotal pages := by
  have htotal : ∀ (page : Page) (pages : List Page),
      methodTotal (page :: pages) = page.methodLines.length + methodTotal pages := by
    intro page pages
    rw [methodTotal, List.flatMap_cons, List.length_append]
    rfl
  induction h with
  | nil => exact ⟨Nat.zero_le _, Nat.zero_le _⟩
  | cons hpart _ ih =>
    rw [htotal, htotal]
    exact ⟨Nat.succ_le_succ ih.1, Nat.add_le_add hpart.methodLines.length_le ih.2⟩
  | cons_right _ ih =>
    rw [htotal]
    exact ⟨ih.1.trans (Nat.le_succ _), ih.2.trans (Nat.le_add_left _ _)⟩

/-- The totals of a dump are those of the pages of its module, whatever the order of the writes. -/
lemma exists_totals_of_dumps {load : Except Fault LoadedModule} {directory path : String}
    {filters : Filters} {files final : FileTree} {trace : List Completion} {report : DumpReport}
    (h : Dumps load directory path filters files trace (.ok report) final) :
    ∃ loaded, load = .ok loaded ∧
      report.classes = (selectedPages filters loaded.types).length ∧
      report.methods = methodTotal (selectedPages filters loaded.types) := by
  cases h with
  | done hfile hload hprepare hrun hcomplete =>
    have haccords := accords_of_isComplete hrun hcomplete
    exact ⟨_, hload, haccords.classes, haccords.methods⟩

/-- Every dump of a module that is loaded can end, be it with no page written. -/
lemma exists_dumps_report {load : Except Fault LoadedModule} {loaded : LoadedModule}
    (directory path : String) (filters : Filters) {files : FileTree}
    (hfile : files.isFile path = true) (hload : load = .ok loaded)
    (hprepare : (files.prepare directory).1 = .ok ()) :
    ∃ trace report final, Dumps load directory path filters files trace (.ok report) final := by
  obtain ⟨s, hpass, htypes, -⟩ := exists_run_to_last_type filters directory
    { types := loaded.types, files := (files.prepare directory).2 }
  have hpages : s.pending.Perm ((s.pending.map fun page =>
      (⟨page, some .notFound⟩ : Completion)).map Completion.page) := by
    simp [Function.comp_def]
  obtain ⟨s', hrun, htypes', hpending'⟩ :=
    exists_run_of_pending s hpages (by simp [Completion.isWritten])
  exact ⟨_, _, _, .done hfile hload hprepare (hpass.trans hrun) ⟨htypes'.trans htypes, hpending'⟩⟩

/-! ## The same pages -/

section Same

variable {filters' filters : Filters} (h : selectedPage? filters' = selectedPage? filters)
include h

/-- A step depends on the filters through the pages alone. -/
lemma Step.of_selectedPage? {directory : String} {s s' : Progress} {ended? : Option Completion}
    (hstep : Step filters' directory s ended? s') : Step filters directory s ended? s' := by
  cases hstep with
  | pass htypes hpage => exact .pass htypes (h ▸ hpage)
  | dispatch htypes hpage => exact .dispatch htypes (h ▸ hpage)
  | write hpending hfiles => exact .write hpending hfiles
  | fail hpending cause => exact .fail hpending cause

/-- So does a run. -/
lemma Run.of_selectedPage? {directory : String} {s s' : Progress} {trace : List Completion}
    (hrun : Run filters' directory s trace s') : Run filters directory s trace s' := by
  induction hrun with
  | refl => exact .refl _
  | tail _ hstep ih => exact ih.tail (hstep.of_selectedPage? h)

/-- So does a dump. -/
lemma Dumps.of_selectedPage? {load : Except Fault LoadedModule} {directory path : String}
    {files final : FileTree} {trace : List Completion} {result : Except Fault DumpReport}
    (hdumps : Dumps load directory path filters' files trace result final) :
    Dumps load directory path filters files trace result final := by
  cases hdumps with
  | notFound hfile => exact .notFound hfile
  | notLoaded hfile hload => exact .notLoaded hfile hload
  | notPrepared hfile hload hprepare => exact .notPrepared hfile hload hprepare
  | done hfile hload hprepare hrun hcomplete =>
    exact .done hfile hload hprepare (hrun.of_selectedPage? h) hcomplete

end Same

/-! ## Blank parts -/

section Blank

variable (typeName methodName : Option String)

/-- Leaving out what is blank a second time changes nothing. -/
lemma Filters.nonBlank_nonBlank (part : Option String) :
    nonBlank (nonBlank part) = nonBlank part := by
  unfold nonBlank
  rw [Option.filter_filter]
  simp

/-- Types are accepted or not without regard to blank parts. -/
lemma Filters.acceptsType_ofInput :
    (ofInput typeName methodName).acceptsType = acceptsType ⟨typeName, methodName⟩ := by
  funext t
  simp only [acceptsType, matchesType, typeName?, ofInput, nonBlank_nonBlank]

/-- So are methods. -/
lemma Filters.acceptsMethod_ofInput :
    (ofInput typeName methodName).acceptsMethod = acceptsMethod ⟨typeName, methodName⟩ := by
  funext m
  simp only [acceptsMethod, matchesMethod, methodName?, ofInput, nonBlank_nonBlank]

/-- Hence pages have the same members. -/
lemma Page.ofType_ofInput :
    ofType (Filters.ofInput typeName methodName) = ofType ⟨typeName, methodName⟩ := by
  funext t
  rw [ofType, Filters.acceptsMethod_ofInput]
  rfl

/-- **The same types have the same pages without blank parts.** -/
lemma selectedPage?_ofInput :
    selectedPage? (Filters.ofInput typeName methodName) = selectedPage? ⟨typeName, methodName⟩ := by
  funext t
  simp only [selectedPage?, Page.ofType?, Filters.acceptsType_ofInput, Page.ofType_ofInput]

/-- **A dump does the same without blank parts**, down to its log. -/
lemma dump_ofInput {m : Type → Type} [Monad m] [Host m]
    (provider : String → ExceptT Fault m LoadedModule) (directory path : String) :
    dump provider directory path (Filters.ofInput typeName methodName) =
      dump provider directory path ⟨typeName, methodName⟩ := by
  have hlog : typeLog (Filters.ofInput typeName methodName) =
      typeLog ⟨typeName, methodName⟩ := by
    funext t
    simp only [typeLog, Filters.acceptsType_ofInput, Page.ofType_ofInput]
  have hpages : selectedPages (Filters.ofInput typeName methodName) =
      selectedPages ⟨typeName, methodName⟩ := by
    funext types
    simp only [selectedPages, selectedPage?_ofInput]
  simp only [dump, hlog, hpages]

end Blank

/-! ## The law -/

/-- **Narrower filters only remove output.** A type that has a page under narrower filters has one
of which that page is a part: it is about the same type, with the same fields and some of the
methods. The pages keep their order, and the totals of every dump are at most those of any dump of
the module under the other filters, in whatever order the writes end. Filters that are made from
what a user typed ask for the same as what was typed.

**Proof sketch.** What holds a text holds its parts, so whatever narrower filters accept is
accepted; then by induction on the types. -/
theorem narrowing_removes_only :
    (∀ filters' filters : Filters, filters'.IsNarrower filters →
      (∀ (t : TypeInfo) (page' : Page), selectedPage? filters' t = some page' →
        ∃ page, selectedPage? filters t = some page ∧ page'.IsPartOf page) ∧
      (∀ types, List.SublistForall₂ Page.IsPartOf (selectedPages filters' types)
        (selectedPages filters types)) ∧
      ∀ (load : Except Fault LoadedModule) (directory' directory path' path : String)
        (files' files final' final : FileTree) (trace' trace : List Completion)
        (report' report : DumpReport),
        Dumps load directory' path' filters' files' trace' (.ok report') final' →
        Dumps load directory path filters files trace (.ok report) final →
        report'.classes ≤ report.classes ∧ report'.methods ≤ report.methods) ∧
    ∀ typeName methodName : Option String,
      selectedPage? (Filters.ofInput typeName methodName) = selectedPage? ⟨typeName, methodName⟩ ∧
      (∀ (load : Except Fault LoadedModule) (directory path : String) (files final : FileTree)
        (trace : List Completion) (result : Except Fault DumpReport),
        Dumps load directory path (Filters.ofInput typeName methodName) files trace result final ↔
          Dumps load directory path ⟨typeName, methodName⟩ files trace result final) ∧
      ∀ (m : Type → Type) [Monad m] [Host m] (provider : String → ExceptT Fault m LoadedModule)
        (directory path : String),
        dump provider directory path (Filters.ofInput typeName methodName) =
          dump provider directory path ⟨typeName, methodName⟩ := by
  constructor
  · intro filters' filters h
    refine ⟨fun t page' => exists_selectedPage?_of_isNarrower h, sublistForall₂_selectedPages h, ?_⟩
    intro load directory' directory path' path files' files final' final trace' trace report'
      report hdumps' hdumps
    obtain ⟨loaded', hload', hclasses', hmethods'⟩ := exists_totals_of_dumps hdumps'
    obtain ⟨loaded, hload, hclasses, hmethods⟩ := exists_totals_of_dumps hdumps
    obtain rfl := Except.ok.inj (hload.symm.trans hload')
    rw [hclasses', hclasses, hmethods', hmethods]
    exact totals_le_of_sublistForall₂ (sublistForall₂_selectedPages h loaded.types)
  · intro typeName methodName
    have hpages := selectedPage?_ofInput typeName methodName
    exact ⟨hpages, fun load directory path files final trace result =>
      ⟨Dumps.of_selectedPage? hpages, Dumps.of_selectedPage? hpages.symm⟩,
      fun m _ _ => dump_ofInput typeName methodName⟩

/-- A module of guards and towers. -/
def patrolModule : LoadedModule where
  name := "Patrol"
  types :=
    [{ name := "Square", fullName := "Patrol.Square", methods := [{ name := "Attack" }] },
      { name := "Guard", fullName := "Patrol.Guard"
        methods := [{ name := "Rest" }, { name := "AttackAll" }, { name := "Attack" }]
        fields := [{ name := "health" }] },
      { name := "GuardTower", fullName := "Patrol.GuardTower", methods := [{ name := "Rest" }] }]
  diagnostics := []

/-- The file of the module. -/
def patrolFiles : FileTree :=
  FileTree.put ∅ ⟨0, "patrol.dll"⟩ .empty

/-- This module by the general law. Asking for guards that attack loses the square, whose name does
not match any more, the tower, none of whose methods matches, and one method of the guard. A blank
part asks for nothing. -/
theorem narrowing_removes_only_patrolModule :
    (selectedPages ⟨some "uar", some " "⟩ patrolModule.types).map Page.name =
      ["Square", "Guard", "GuardTower"] ∧
    (selectedPages ⟨some "Guard", some "Attack"⟩ patrolModule.types).map Page.name = ["Guard"] ∧
    List.SublistForall₂ Page.IsPartOf
      (selectedPages ⟨some "Guard", some "Attack"⟩ patrolModule.types)
      (selectedPages ⟨some "uar", some " "⟩ patrolModule.types) ∧
    (∀ t ∈ patrolModule.types, ∀ page',
      selectedPage? ⟨some "Guard", some "Attack"⟩ t = some page' →
        ∃ page, selectedPage? ⟨some "uar", some " "⟩ t = some page ∧ page'.IsPartOf page) ∧
    (∃ trace' trace report' report final' final,
      Dumps (.ok patrolModule) "out" "patrol.dll" ⟨some "Guard", some "Attack"⟩ patrolFiles trace'
        (.ok report') final' ∧
      Dumps (.ok patrolModule) "out" "patrol.dll" ⟨some "uar", some " "⟩ patrolFiles trace
        (.ok report) final ∧
      report'.classes ≤ report.classes ∧ report'.methods ≤ report.methods) ∧
    selectedPage? (Filters.ofInput (some "uar") (some " ")) =
      selectedPage? ⟨some "uar", some " "⟩ := by
  obtain ⟨hnarrow, hinput⟩ := narrowing_removes_only
  obtain ⟨htypes, hpages, htotals⟩ := hnarrow ⟨some "Guard", some "Attack"⟩
    ⟨some "uar", some " "⟩ ⟨by decide +kernel, by decide +kernel⟩
  have hfile : patrolFiles.isFile "patrol.dll" = true := rfl
  have hprepare : (patrolFiles.prepare "out").1 = .ok () := rfl
  obtain ⟨trace', report', final', hdumps'⟩ :=
    exists_dumps_report "out" "patrol.dll" ⟨some "Guard", some "Attack"⟩ hfile rfl hprepare
  obtain ⟨trace, report, final, hdumps⟩ :=
    exists_dumps_report "out" "patrol.dll" ⟨some "uar", some " "⟩ hfile rfl hprepare
  exact ⟨by decide +kernel, by decide +kernel, hpages patrolModule.types,
    fun t _ page' => htypes t page',
    ⟨trace', trace, report', report, final', final, hdumps', hdumps,
      htotals _ _ _ _ _ _ _ _ _ _ _ _ _ hdumps' hdumps⟩,
    (hinput (some "uar") (some " ")).1⟩

end TypeInventory
