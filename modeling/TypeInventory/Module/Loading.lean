import TypeInventory.Module.Members
import TypeInventory.Text.Substring

set_option relaxedAutoImplicit false
set_option autoImplicit false

/-!
# Loading a module

A module is loaded from its metadata. A damaged root, heap or head of the tables makes it fail as
a whole; a damaged type is left out and leaves an error among the diagnostics.

## Main definitions

* `OpenModule`, `OpenModule.ofMetadata` — a module whose root, heaps and tables have been found.
* `OpenModule.name`, `OpenModule.references` — its name and the assemblies it refers to.
* `LoadedModule`, `OpenModule.load` — what loading it gives.
-/

namespace TypeInventory

/-- The ending of the names of modules, which is no part of the name of an assembly. -/
def moduleEnding : String := ".dll"

/-! ## Opening -/

/-- A module whose root, heaps and tables have been found. -/
structure OpenModule where
  /-- The metadata root. -/
  root : MetadataRoot
  /-- The names. -/
  strings : StringHeap
  /-- The signatures. -/
  blobs : BlobHeap
  /-- The tables. -/
  tables : TableStream

/-- A reference to another assembly, with its name or why that cannot be read. -/
structure AssemblyReference where
  /-- The token of the reference. -/
  token : Token
  /-- The name of the assembly. -/
  name : Except Fault String

namespace OpenModule

/-- Opens the module with the given metadata. A heap that it has no stream for holds nothing but
the empty entry. -/
def ofMetadata (metadata : ByteArray) : Except Fault OpenModule := do
  let root ← MetadataRoot.ofBytes metadata
  let stream? := root.stream? metadata
  match stream? "#~" <|> stream? "#-" with
  | none => throw (.malformed .noTablesStream)
  | some tables =>
    let strings ← StringHeap.ofBytes ((stream? "#Strings").getD emptyHeap)
    let blobs ← BlobHeap.ofBytes ((stream? "#Blob").getD emptyHeap)
    let tables ← TableStream.ofBytes tables
    return { root, strings, blobs, tables }

variable (m : OpenModule)

/-- The name of the assembly, or that of the module without its ending, or nothing, if neither can
be read. -/
def name : String :=
  let assembly? := do
    let row ← (m.tables.table AssemblyRow).get? 1
    (m.strings.get row.name).toOption
  let module? := do
    let row ← (m.tables.table ModuleRow).get? 1
    let name ← (m.strings.get row.name).toOption
    return (Text.beforeSuffix? name moduleEnding).getD name
  (assembly? <|> module?).getD ""

/-- The assemblies that the module refers to. -/
def references : List AssemblyReference :=
  (m.tables.table AssemblyRefRow).rows.map fun row =>
    ⟨TableId.assemblyRef.token row.rid, m.strings.get row.name⟩

end OpenModule

/-! ## References -/

namespace AssemblyReference

/-- The warning about a reference whose name cannot be read. -/
def diagnostic? (r : AssemblyReference) : Option Diagnostic :=
  match r.name with
  | .ok _ => none
  | .error e => some {
      severity := .warning
      category := .reference
      message := s!"Unreadable assembly reference name - {e}"
      token? := some r.token }

/-- What the log says about a reference, if `find?` gives the places of assemblies. -/
def log (find? : String → Option String) (r : AssemblyReference) : LogEntry :=
  match r.name with
  | .ok name =>
    match find? name with
    | some path => ⟨.debug, s!"Reference {name} resolves to {path}"⟩
    | none => ⟨.debug, s!"Reference {name} not found beside the module"⟩
  | .error _ => ⟨.warn, s!"AssemblyRef {r.token} has no readable name"⟩

end AssemblyReference

/-! ## Loading -/

/-- What loading a module gives. -/
structure LoadedModule where
  /-- Its name. -/
  name : String
  /-- The types that could be resolved, in the order of definition. -/
  types : List TypeInfo
  /-- What went wrong on the way. -/
  diagnostics : List Diagnostic
deriving Repr, Inhabited

/-- The error about a type that could not be resolved. -/
def typeFailure (row : TypeDefRow) (e : Fault) : Diagnostic where
  severity := .error
  category := .type
  message := s!"Failed to resolve type - {e}"
  token? := some row.token

/-- A type definition with what became of it. -/
structure TypeOutcome where
  /-- The definition. -/
  row : TypeDefRow
  /-- What became of it. -/
  resolution : Resolution (Option TypeInfo)

namespace TypeOutcome

/-- The type, if it could be resolved and is listed. -/
def type? (o : TypeOutcome) : Option TypeInfo :=
  match o.resolution.result with
  | .ok type? => type?
  | .error _ => none

/-- The error, if the type could not be resolved. -/
def failure? (o : TypeOutcome) : Option Diagnostic :=
  match o.resolution.result with
  | .ok _ => none
  | .error e => some (typeFailure o.row e)

end TypeOutcome

/-- All type definitions with what became of them. -/
def MetadataModule.outcomes (m : MetadataModule) : List TypeOutcome :=
  m.typeDefs.rows.map fun row => ⟨row, m.resolveType row⟩

namespace OpenModule

/-- Loads an opened module. References are checked only if there is a `find?` that gives the places
of assemblies. Also gives the lines of the log. -/
def load (m : OpenModule) (find? : Option (String → Option String)) :
    LoadedModule × List LogEntry :=
  let references := if find?.isSome then m.references else []
  let (nameWarnings, module) :=
    MetadataModule.ofTables (ModuleTables.ofStreams m.strings m.blobs m.tables) m.tables
  let outcomes := module.outcomes
  let types := outcomes.filterMap TypeOutcome.type?
  let diagnostics :=
    references.filterMap AssemblyReference.diagnostic?
      ++ nameWarnings
      ++ outcomes.flatMap (fun o => o.resolution.warnings)
      ++ outcomes.filterMap TypeOutcome.failure?
  let opened : LogEntry :=
    ⟨.debug,
      s!"Metadata {m.root.version} with tables schema {m.tables.major}.{m.tables.minor}"⟩
  let marked : List LogEntry :=
    if (m.tables.table CustomAttributeRow).rowCount = 0 then []
    else [⟨.debug, s!"{module.generated.size} members marked as compiler generated"⟩]
  let resolved : LogEntry :=
    ⟨.debug, s!"Resolved {types.length} of {outcomes.length} type definitions"⟩
  (⟨m.name, types, diagnostics⟩,
    [opened] ++ references.map (AssemblyReference.log (find?.getD fun _ => none))
      ++ marked ++ [resolved])

end OpenModule

/-- Loads the module with the given metadata. -/
def loadMetadata (metadata : ByteArray) (find? : Option (String → Option String)) :
    Except Fault (LoadedModule × List LogEntry) :=
  return (← OpenModule.ofMetadata metadata).load find?

end TypeInventory
