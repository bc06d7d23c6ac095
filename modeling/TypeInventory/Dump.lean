import TypeInventory.Module.Finding
import TypeInventory.Output.Writer

set_option relaxedAutoImplicit false
set_option autoImplicit false

/-!
# Dumping a module

A dump loads a module, selects types, renders a page for each of them and writes the pages into a
directory. The totals count what is on the pages, whether they could be written or not.

## Main definitions

* `selectedPage?`, `selectedPages` — the pages of types.
* `DumpSummary`, `dump` — a dump and what it gives.
-/

namespace TypeInventory

/-! ## Pages -/

/-- The page of a type, if it is selected and not empty. -/
def selectedPage? (filters : Filters) (t : TypeInfo) : Option Page :=
  if filters.acceptsType t then Page.ofType? filters t else none

/-- The pages of types in order. -/
def selectedPages (filters : Filters) (types : List TypeInfo) : List Page :=
  types.filterMap (selectedPage? filters)

/-- How many methods are on some pages. -/
def methodTotal (pages : List Page) : Nat :=
  (pages.flatMap Page.methodLines).length

/-- What the log is told about a type: nothing, if it is not selected. -/
def typeLog (filters : Filters) (t : TypeInfo) : List LogEntry :=
  if filters.acceptsType t then
    ⟨.info, s!"Type: {t.fullName}"⟩ :: (Page.ofType filters t).log
  else
    []

/-! ## Dumps -/

/-- What a dump gives. -/
structure DumpSummary where
  /-- The name of the module. -/
  module : String
  /-- The pages, written or not. -/
  pages : List Page
  /-- Where the pages went. -/
  outputDirectory : String
  /-- What became of the pages. -/
  outcome : WriteOutcome
  /-- What went wrong while the module was loaded. -/
  diagnostics : List Diagnostic
deriving Repr

namespace DumpSummary

/-- How many methods are on the pages. -/
def methods (s : DumpSummary) : Nat :=
  methodTotal s.pages

/-- How many pages there are. -/
def classes (s : DumpSummary) : Nat :=
  s.pages.length

end DumpSummary

variable {m : Type → Type} [Monad m] [Host m]

/-- Dumps the module in a file, as `provider` loads it, into a directory. Fails if there is no
such file, if the module cannot be loaded, or if there can be no such directory. -/
def dump (provider : String → ExceptT Fault m LoadedModule) (directory path : String)
    (filters : Filters) : ExceptT Fault m DumpSummary := do
  unless ← Host.isFile path do
    Host.log ⟨.error, s!"{path} not found"⟩
    throw (.moduleNotFound path)
  Host.log ⟨.info, s!"Found file: {path}"⟩
  let loaded ← provider path
  Host.log ⟨.info, s!"Assembly {loaded.name} has been loaded"⟩
  loaded.diagnostics.forM fun d => Host.log ⟨.error, s!"Loader exception: {d.text}"⟩
  Host.log ⟨.info, s!"Found {loaded.types.length} types in the assembly"⟩
  prepareOutput directory
  (loaded.types.flatMap (typeLog filters)).forM Host.log
  let pages := selectedPages filters loaded.types
  let outcome ← writePages directory pages
  let summary : DumpSummary := {
    module := loaded.name
    pages
    outputDirectory := directory
    outcome
    diagnostics := loaded.diagnostics }
  Host.log ⟨.info, s!"Total {summary.methods} methods found in {summary.classes} classes"⟩
  Host.log ⟨.info, s!"Results saved in {directory}"⟩
  return summary

end TypeInventory
