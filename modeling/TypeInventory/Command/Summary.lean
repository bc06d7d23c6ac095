import TypeInventory.Dump
import TypeInventory.Text.Json

set_option relaxedAutoImplicit false
set_option autoImplicit false

/-!
# Summaries for other programs

## Main definitions

* `DumpSummary.json` — a summary as structured output.
-/

namespace TypeInventory

open Text (Json)

/-- A page that could not be written, as structured output. -/
def WriteFailure.json (f : WriteFailure) : Json :=
  .object [("path", .text f.path), ("error", .text f.cause.message)]

/-- A diagnostic, as structured output. -/
def Diagnostic.json (d : Diagnostic) : Json :=
  .object [
    ("severity", .text d.severity.text),
    ("category", .text d.category.text),
    ("token", match d.token? with
      | some token => .text token.text
      | none => .null),
    ("message", .text d.message)]

/-- A summary, as structured output. -/
def DumpSummary.json (s : DumpSummary) : Json :=
  .object [
    ("module", .text s.module),
    ("output_dir", .text s.outputDirectory),
    ("methods", .number s.methods),
    ("classes", .number s.classes),
    ("pages_written", .number s.outcome.written),
    ("failed_writes", .list (s.outcome.failures.map WriteFailure.json)),
    ("diagnostics", .list (s.diagnostics.map Diagnostic.json))]

end TypeInventory
