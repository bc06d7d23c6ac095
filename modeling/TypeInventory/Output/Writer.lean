import TypeInventory.Host
import TypeInventory.Output.FileName

set_option relaxedAutoImplicit false
set_option autoImplicit false

/-!
# Writing pages

Every page is written into a file of its own in one directory. A page that cannot be written does
not affect the others; two pages with the same file name share a file, and the last one stays.

## Main definitions

* `WriteFailure`, `WriteOutcome` — a page that could not be written, and what became of all pages.
* `prepareOutput`, `writePage`, `writePages` — the directory, one page, and all pages.
-/

namespace TypeInventory

/-- A page that could not be written. -/
structure WriteFailure where
  /-- Where it should have been written. -/
  path : String
  /-- Why it was not. -/
  cause : FileFault
deriving DecidableEq, Repr

/-- What became of the pages. -/
structure WriteOutcome where
  /-- How many were written. -/
  written : Nat
  /-- Those that were not. -/
  failures : List WriteFailure
deriving DecidableEq, Repr

variable {m : Type → Type} [Monad m] [Host m]

/-- Creates the directory of the output, if it is missing. -/
def prepareOutput (directory : String) : ExceptT Fault m Unit := do
  match ← (createDirectories directory : m _) with
  | .ok () => return
  | .error e => throw (.file e)

/-- Writes a page; gives the failure, if it cannot be written. -/
def writePage (directory : String) (page : Page) : m (Option WriteFailure) := do
  let path := page.path directory
  match ← Host.writeFile path page.text with
  | .ok () =>
    Host.log ⟨.debug, s!"Wrote {path}"⟩
    return none
  | .error e =>
    Host.log ⟨.error, s!"Failed to write {path}: {e.message}"⟩
    return some ⟨path, e⟩

/-- Writes pages one after another. -/
def writePages (directory : String) (pages : List Page) : m WriteOutcome := do
  let failures ← pages.filterMapM (writePage directory)
  return ⟨pages.length - failures.length, failures⟩

end TypeInventory
