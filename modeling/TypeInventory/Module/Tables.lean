import TypeInventory.Metadata.Heap
import TypeInventory.Metadata.Root
import TypeInventory.Metadata.Tables

set_option relaxedAutoImplicit false
set_option autoImplicit false

/-!
# The tables of a module

A module is opened by reading its root, its heaps and the head of its tables. What goes wrong up
to here concerns the module as a whole.

## Main definitions

* `ModuleTables`, `ModuleTables.ofMetadata` — the heaps and tables of a module.
* `ModuleTables.typeDefNames`, `ModuleTables.typeRefNames` — namespace and name of a type.
* `MemberList`, `ModuleTables.memberCount`, `ModuleTables.memberAt?` — the order of members.
-/

namespace TypeInventory

/-- The heaps and the tables of a module. -/
structure ModuleTables where
  /-- The names. -/
  strings : StringHeap
  /-- The signatures. -/
  blobs : BlobHeap
  /-- The types that the module refers to. -/
  typeRefs : Table TypeRefRow
  /-- The types that the module defines. -/
  typeDefs : Table TypeDefRow
  /-- The constructed types. -/
  typeSpecs : Table TypeSpecRow
  /-- The fields. -/
  fields : Table FieldRow
  /-- The order of fields, where it is not that of their rows. -/
  fieldPtrs : Table FieldPtrRow
  /-- The methods. -/
  methods : Table MethodDefRow
  /-- The order of methods, where it is not that of their rows. -/
  methodPtrs : Table MethodPtrRow
  /-- The parameters. -/
  params : Table ParamRow
  /-- The order of parameters, where it is not that of their rows. -/
  paramPtrs : Table ParamPtrRow

/-- The lists of members of which types and methods own a part each. -/
inductive MemberList where
  /-- The fields of types. -/
  | field
  /-- The methods of types. -/
  | method
  /-- The parameters of methods. -/
  | param
deriving DecidableEq, Repr, Inhabited

/-- The word for a list of members. -/
def MemberList.text : MemberList → String
  | .field => "Field"
  | .method => "Method"
  | .param => "Param"

namespace ModuleTables

/-- The heaps and the tables found in streams. -/
def ofStreams (strings : StringHeap) (blobs : BlobHeap) (tables : TableStream) : ModuleTables where
  strings := strings
  blobs := blobs
  typeRefs := tables.table TypeRefRow
  typeDefs := tables.table TypeDefRow
  typeSpecs := tables.table TypeSpecRow
  fields := tables.table FieldRow
  fieldPtrs := tables.table FieldPtrRow
  methods := tables.table MethodDefRow
  methodPtrs := tables.table MethodPtrRow
  params := tables.table ParamRow
  paramPtrs := tables.table ParamPtrRow

/-! ## Names -/

/-- Namespace and name of the type defined in row `rid`. -/
def typeDefNames (m : ModuleTables) (rid : Nat) : Except Fault (String × String) :=
  match m.typeDefs.get? rid with
  | some row => return (← m.strings.get row.typeNamespace, ← m.strings.get row.typeName)
  | none => throw (.malformed (.missingTypeDef rid))

/-- Namespace and name of the type referred to in row `rid`. -/
def typeRefNames (m : ModuleTables) (rid : Nat) : Except Fault (String × String) :=
  match m.typeRefs.get? rid with
  | some row => return (← m.strings.get row.typeNamespace, ← m.strings.get row.typeName)
  | none => throw (.malformed (.missingTypeRef rid))

/-- Namespace and name of the type that a token names; nothing for a token of another table. -/
def tokenNames? (m : ModuleTables) (token : Token) : Except Fault (Option (String × String)) :=
  if token.table = TableId.typeDef.number then
    return some (← m.typeDefNames token.row)
  else if token.table = TableId.typeRef.number then
    return some (← m.typeRefNames token.row)
  else
    return none

/-! ## The order of members -/

/-- How many places a list of members has: as many as there are pointers, or as many as there are
rows if there are no pointers. -/
def memberCount (m : ModuleTables) : MemberList → Nat
  | .field => if m.fieldPtrs.rowCount = 0 then m.fields.rowCount else m.fieldPtrs.rowCount
  | .method => if m.methodPtrs.rowCount = 0 then m.methods.rowCount else m.methodPtrs.rowCount
  | .param => if m.paramPtrs.rowCount = 0 then m.params.rowCount else m.paramPtrs.rowCount

/-- The row of the member at a place of a list, counted from one: where the pointer there points,
or the place itself if there are no pointers. -/
def memberAt? (m : ModuleTables) (list : MemberList) (place : Nat) : Option Nat :=
  match list with
  | .field =>
    if m.fieldPtrs.rowCount = 0 then some place
    else (m.fieldPtrs.get? place).map FieldPtrRow.field
  | .method =>
    if m.methodPtrs.rowCount = 0 then some place
    else (m.methodPtrs.get? place).map MethodPtrRow.method
  | .param =>
    if m.paramPtrs.rowCount = 0 then some place
    else (m.paramPtrs.get? place).map ParamPtrRow.param

/-- The rows of the members at the places from `start` on and before `stop`. Places whose pointer
cannot be read are left out. -/
def membersBetween (m : ModuleTables) (list : MemberList) (start stop : Nat) : List Nat :=
  (List.range' start (stop - start)).filterMap (m.memberAt? list)

end ModuleTables

end TypeInventory
