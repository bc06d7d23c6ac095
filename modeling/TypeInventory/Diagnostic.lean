import TypeInventory.Fault
import TypeInventory.Text.ControlSequence

set_option relaxedAutoImplicit false
set_option autoImplicit false

/-!
# Diagnostics and log

Problems that do not stop the loading of a module are kept as diagnostics. What a run does is
told step by step in a log.

## Main definitions

* `Diagnostic`, `Diagnostic.text` — a problem and what is shown for it.
* `errorCount` — the number of errors among diagnostics.
* `LogLevel`, `LogEntry` — a line of the log.
-/

namespace TypeInventory

/-! ## Diagnostics -/

/-- How bad a problem is. -/
inductive Severity where
  /-- Unusual but harmless. -/
  | info
  /-- Something is missing or approximate. -/
  | warning
  /-- A type could not be resolved and is left out. -/
  | error
deriving DecidableEq, Repr, Inhabited

/-- The word for a severity. -/
def Severity.text : Severity → String
  | .info => "INFO"
  | .warning => "WARN"
  | .error => "ERROR"

/-- The part of a module that a problem belongs to. -/
inductive DiagnosticCategory where
  /-- A heap of strings or blobs. -/
  | heap
  /-- The structure of a table or the contents of a row. -/
  | table
  /-- A signature. -/
  | signature
  /-- The resolution of a type. -/
  | type
  /-- A custom attribute. -/
  | customAttribute
  /-- A reference to another assembly. -/
  | reference
  /-- Anything else. -/
  | general
deriving DecidableEq, Repr, Inhabited

/-- All categories. -/
def DiagnosticCategory.all : List DiagnosticCategory :=
  [.heap, .table, .signature, .type, .customAttribute, .reference, .general]

/-- The word for a category. -/
def DiagnosticCategory.text : DiagnosticCategory → String
  | .heap => "Heap"
  | .table => "Table"
  | .signature => "Signature"
  | .type => "Type"
  | .customAttribute => "CustomAttribute"
  | .reference => "Reference"
  | .general => "General"

/-- A problem that did not stop the loading of a module. -/
structure Diagnostic where
  /-- How bad it is. -/
  severity : Severity
  /-- Where it belongs. -/
  category : DiagnosticCategory
  /-- What happened. -/
  message : String
  /-- The type or member it concerns, if known. -/
  token? : Option Token := none
deriving DecidableEq, Repr, Inhabited

/-- What is shown for a diagnostic. -/
def Diagnostic.text (d : Diagnostic) : String :=
  "[" ++ d.severity.text ++ "] " ++ d.category.text ++ ": " ++ d.message
    ++ match d.token? with
      | some token => " (token: " ++ token.text ++ ")"
      | none => ""

/-- The number of errors among diagnostics. -/
def errorCount (ds : List Diagnostic) : Nat :=
  ds.countP fun d => d.severity == .error

/-! ## Log -/

/-- How important a line of the log is. -/
inductive LogLevel where
  /-- Details of interest when something goes wrong. -/
  | debug
  /-- What happens in the normal course. -/
  | info
  /-- Something unexpected that does not stop the run. -/
  | warn
  /-- Something failed. -/
  | error
deriving DecidableEq, Repr, Inhabited

/-- The word for a level. -/
def LogLevel.text : LogLevel → String
  | .debug => "DEBUG"
  | .info => "INFO"
  | .warn => "WARN"
  | .error => "ERROR"

/-- The rank of a level: the more important, the greater. -/
def LogLevel.rank : LogLevel → Nat
  | .debug => 0
  | .info => 1
  | .warn => 2
  | .error => 3

/-- A line of the log. -/
structure LogEntry where
  /-- Its importance. -/
  level : LogLevel
  /-- What it says. -/
  text : String
deriving DecidableEq, Repr, Inhabited

namespace LogEntry

/-- Whether an entry is at least as important as a level. -/
def reaches (e : LogEntry) (level : LogLevel) : Bool :=
  level.rank ≤ e.level.rank

/-- The line that is written for an entry at a time, with its end. Nothing in it commands a
terminal. -/
def line (e : LogEntry) (time : String) : String :=
  Text.withoutControls ("[" ++ time ++ "] [" ++ e.level.text ++ "] " ++ e.text ++ "\n")

end LogEntry

end TypeInventory
