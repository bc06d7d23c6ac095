import TypeInventory.Module.Resolution
import TypeInventory.Module.Tables
import Std.Data.TreeMap
import Std.Data.TreeSet

set_option relaxedAutoImplicit false
set_option autoImplicit false

/-!
# Relations between rows

Some tables relate rows of other tables: which type encloses which, what generic parameters are
called, and what carries the mark of compiler-made code. These relations are gathered once.

## Main definitions

* `MetadataModule` — the tables of a module together with these relations.
* `ModuleTables.enclosingTypes`, `ModuleTables.genericNames`, `ModuleTables.generatedTokens` —
  the relations.
* `MetadataModule.ofTables` — a module with its relations.
-/

namespace TypeInventory

/-- The tables of a module and the relations between their rows. -/
structure MetadataModule extends ModuleTables where
  /-- From a nested type to the type that encloses it. -/
  enclosing : Std.TreeMap Nat Nat
  /-- From a type to the names of its generic parameters. -/
  typeGenerics : Std.TreeMap Nat (List String)
  /-- From a method to the names of its generic parameters. -/
  methodGenerics : Std.TreeMap Nat (List String)
  /-- What carries the mark of compiler-made code, by the words of tokens. -/
  generated : Std.TreeSet Nat

/-! ## Enclosing types -/

/-- From a nested type to the type that encloses it; the last row about a type counts. -/
def enclosingTypes (rows : List NestedClassRow) : Std.TreeMap Nat Nat :=
  rows.foldl (fun types row => types.insert row.nestedClass row.enclosingClass) ∅

/-! ## Generic parameters -/

/-- Puts a numbered name in front of the first one whose number is not below its own. -/
def insertByNumber (name : Nat × String) : List (Nat × String) → List (Nat × String)
  | [] => [name]
  | other :: names =>
    if name.1 ≤ other.1 then name :: other :: names else other :: insertByNumber name names

/-- Numbered names in the order of their numbers. The last one of `names` came first, and names of
equal number stay in the order in which they came. -/
def orderByNumber (names : List (Nat × String)) : List (Nat × String) :=
  names.foldl (fun ordered name => insertByNumber name ordered) []

/-- The warning about a generic parameter whose name cannot be read. -/
def genericNameWarning (row : GenericParamRow) (e : Fault) : Diagnostic where
  severity := .warning
  category := .heap
  message := s!"Generic parameter name unreadable - {e}"
  token? := some (TableId.genericParam.token row.rid)

/-- Rows of generic parameters with their names. A row whose name cannot be read is left out with
a warning. -/
def namedGenerics (strings : StringHeap) (rows : List GenericParamRow) :
    List Diagnostic × List (GenericParamRow × String) :=
  rows.foldr
    (fun row (ws, named) =>
      match strings.get row.name with
      | .ok name => (ws, (row, name) :: named)
      | .error e => (genericNameWarning row e :: ws, named))
    ([], [])

/-- The names of the generic parameters of all owners in a table, by the owner's row as its token
shows it. Names come in the order of their numbers; a number that is missing leaves no gap. -/
def genericNames (owners : TableId) (named : List (GenericParamRow × String)) :
    Std.TreeMap Nat (List String) :=
  let collected : Std.TreeMap Nat (List (Nat × String)) :=
    named.foldl
      (fun names (row, name) =>
        if row.owner.table = owners then
          let owner := row.owner.token.row
          names.insert owner ((row.number, name) :: names.getD owner [])
        else
          names)
      ∅
  collected.map fun _ names => (orderByNumber names).map Prod.snd

/-! ## Compiler-made code -/

/-- Namespace and name of the attribute that marks compiler-made code. -/
def generatedAttribute : String × String :=
  ("System.Runtime.CompilerServices", "CompilerGeneratedAttribute")

namespace ModuleTables

/-- The types with the places where their runs of methods start and stop. A run stops where that
of the next type starts, the last one behind the last method. -/
def methodRuns (m : ModuleTables) (rows : List TypeDefRow) : List (Nat × Nat × Nat) :=
  rows.zipWith (fun row stop => (row.rid, row.methodList, stop))
    ((rows.drop 1).map TypeDefRow.methodList ++ [m.memberCount .method + 1])

/-- Whether a run of methods from `start` on and before `stop` holds a method. -/
def runHolds (m : ModuleTables) (start stop method : Nat) : Bool :=
  if m.methodPtrs.rowCount = 0 then
    start ≤ method && method < stop
  else
    (m.membersBetween .method start (min stop (m.memberCount .method + 1))).contains method

/-- The type whose run of methods holds a method; the first one, if several do. -/
def methodOwner? (m : ModuleTables) (runs : List (Nat × Nat × Nat)) (method : Nat) : Option Nat :=
  (runs.find? fun (_, start, stop) => m.runHolds start stop method).map Prod.fst

/-- Namespace and name of the type of an attribute, by the method that constructs it. -/
def attributeType? (m : ModuleTables) (memberRefs : Table MemberRefRow)
    (runs : List (Nat × Nat × Nat)) (maker : CodedIndex) : Option (String × String) :=
  match maker.table with
  | .methodDef => do
    let owner ← m.methodOwner? runs maker.row
    (m.typeDefNames owner).toOption
  | .memberRef => do
    let row ← memberRefs.get? maker.row
    match row.parent.table with
    | .typeRef => (m.typeRefNames row.parent.row).toOption
    | .typeDef => (m.typeDefNames row.parent.row).toOption
    | _ => none
  | _ => none

/-- The words of the tokens of everything that carries the mark of compiler-made code. -/
def generatedTokens (m : ModuleTables) (memberRefs : Table MemberRefRow)
    (attributes : List CustomAttributeRow) : Std.TreeSet Nat :=
  let runs := m.methodRuns m.typeDefs.rows
  attributes.foldl
    (fun tokens row =>
      if m.attributeType? memberRefs runs row.maker = some generatedAttribute then
        tokens.insert row.parent.token.value.toNat
      else
        tokens)
    ∅

end ModuleTables

namespace MetadataModule

/-- A module with its relations, and the warnings about names of generic parameters. -/
def ofTables (m : ModuleTables) (tables : TableStream) : List Diagnostic × MetadataModule :=
  let (warnings, named) := namedGenerics m.strings (tables.table GenericParamRow).rows
  (warnings,
    { m with
      enclosing := enclosingTypes (tables.table NestedClassRow).rows
      typeGenerics := genericNames .typeDef named
      methodGenerics := genericNames .methodDef named
      generated :=
        m.generatedTokens (tables.table MemberRefRow) (tables.table CustomAttributeRow).rows })

/-- Whether a token names something that carries the mark of compiler-made code. -/
def isGenerated (m : MetadataModule) (token : Token) : Bool :=
  m.generated.contains token.value.toNat

end MetadataModule

end TypeInventory
