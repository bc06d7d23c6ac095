set_option relaxedAutoImplicit false
set_option autoImplicit false

/-!
# The kinds of tables

Metadata hold up to 45 tables, numbered from `0x00` to `0x2C`. A row consists of columns, which
hold numbers, places in heaps, rows of one other table, or coded indices: rows of one of several
tables, selected by a tag in the low bits.

## Main definitions

* `TableId` — the tables; `TableId.number`, `TableId.name`, `TableId.columns`.
* `CodedKind` — the kinds of coded indices, with the tables between which they select.
* `Column` — the kinds of columns.
-/

namespace TypeInventory

/-! ## Tables -/

/-- The tables of metadata, in the order of their numbers. -/
inductive TableId where
  | module
  | typeRef
  | typeDef
  | fieldPtr
  | field
  | methodPtr
  | methodDef
  | paramPtr
  | param
  | interfaceImpl
  | memberRef
  | constant
  | customAttribute
  | fieldMarshal
  | declSecurity
  | classLayout
  | fieldLayout
  | standAloneSig
  | eventMap
  | eventPtr
  | event
  | propertyMap
  | propertyPtr
  | property
  | methodSemantics
  | methodImpl
  | moduleRef
  | typeSpec
  | implMap
  | fieldRva
  | encLog
  | encMap
  | assembly
  | assemblyProcessor
  | assemblyOs
  | assemblyRef
  | assemblyRefProcessor
  | assemblyRefOs
  | file
  | exportedType
  | manifestResource
  | nestedClass
  | genericParam
  | methodSpec
  | genericParamConstraint
deriving DecidableEq, Repr, Inhabited

namespace TableId

/-- The number of a table. -/
def number : TableId → Nat
  | module => 0x00
  | typeRef => 0x01
  | typeDef => 0x02
  | fieldPtr => 0x03
  | field => 0x04
  | methodPtr => 0x05
  | methodDef => 0x06
  | paramPtr => 0x07
  | param => 0x08
  | interfaceImpl => 0x09
  | memberRef => 0x0A
  | constant => 0x0B
  | customAttribute => 0x0C
  | fieldMarshal => 0x0D
  | declSecurity => 0x0E
  | classLayout => 0x0F
  | fieldLayout => 0x10
  | standAloneSig => 0x11
  | eventMap => 0x12
  | eventPtr => 0x13
  | event => 0x14
  | propertyMap => 0x15
  | propertyPtr => 0x16
  | property => 0x17
  | methodSemantics => 0x18
  | methodImpl => 0x19
  | moduleRef => 0x1A
  | typeSpec => 0x1B
  | implMap => 0x1C
  | fieldRva => 0x1D
  | encLog => 0x1E
  | encMap => 0x1F
  | assembly => 0x20
  | assemblyProcessor => 0x21
  | assemblyOs => 0x22
  | assemblyRef => 0x23
  | assemblyRefProcessor => 0x24
  | assemblyRefOs => 0x25
  | file => 0x26
  | exportedType => 0x27
  | manifestResource => 0x28
  | nestedClass => 0x29
  | genericParam => 0x2A
  | methodSpec => 0x2B
  | genericParamConstraint => 0x2C

/-- The name of a table. -/
def name : TableId → String
  | module => "Module"
  | typeRef => "TypeRef"
  | typeDef => "TypeDef"
  | fieldPtr => "FieldPtr"
  | field => "Field"
  | methodPtr => "MethodPtr"
  | methodDef => "MethodDef"
  | paramPtr => "ParamPtr"
  | param => "Param"
  | interfaceImpl => "InterfaceImpl"
  | memberRef => "MemberRef"
  | constant => "Constant"
  | customAttribute => "CustomAttribute"
  | fieldMarshal => "FieldMarshal"
  | declSecurity => "DeclSecurity"
  | classLayout => "ClassLayout"
  | fieldLayout => "FieldLayout"
  | standAloneSig => "StandAloneSig"
  | eventMap => "EventMap"
  | eventPtr => "EventPtr"
  | event => "Event"
  | propertyMap => "PropertyMap"
  | propertyPtr => "PropertyPtr"
  | property => "Property"
  | methodSemantics => "MethodSemantics"
  | methodImpl => "MethodImpl"
  | moduleRef => "ModuleRef"
  | typeSpec => "TypeSpec"
  | implMap => "ImplMap"
  | fieldRva => "FieldRVA"
  | encLog => "EncLog"
  | encMap => "EncMap"
  | assembly => "Assembly"
  | assemblyProcessor => "AssemblyProcessor"
  | assemblyOs => "AssemblyOS"
  | assemblyRef => "AssemblyRef"
  | assemblyRefProcessor => "AssemblyRefProcessor"
  | assemblyRefOs => "AssemblyRefOS"
  | file => "File"
  | exportedType => "ExportedType"
  | manifestResource => "ManifestResource"
  | nestedClass => "NestedClass"
  | genericParam => "GenericParam"
  | methodSpec => "MethodSpec"
  | genericParamConstraint => "GenericParamConstraint"

/-- All tables in the order of their numbers. -/
def all : List TableId :=
  [module, typeRef, typeDef, fieldPtr, field, methodPtr, methodDef, paramPtr, param,
    interfaceImpl, memberRef, constant, customAttribute, fieldMarshal, declSecurity,
    classLayout, fieldLayout, standAloneSig, eventMap, eventPtr, event, propertyMap,
    propertyPtr, property, methodSemantics, methodImpl, moduleRef, typeSpec, implMap, fieldRva,
    encLog, encMap, assembly, assemblyProcessor, assemblyOs, assemblyRef, assemblyRefProcessor,
    assemblyRefOs, file, exportedType, manifestResource, nestedClass, genericParam, methodSpec,
    genericParamConstraint]

/-- How many tables there are. -/
def count : Nat := 45

/-- The list of all tables has each table at the place of its number. -/
theorem all_getElem?_number (t : TableId) : all[t.number]? = some t := by
  cases t <;> rfl

end TableId

/-! ## Coded indices -/

/-- The kinds of coded indices. -/
inductive CodedKind where
  | typeDefOrRef
  | hasConstant
  | hasCustomAttribute
  | hasFieldMarshal
  | hasDeclSecurity
  | memberRefParent
  | hasSemantics
  | methodDefOrRef
  | memberForwarded
  | implementation
  | customAttributeType
  | resolutionScope
  | typeOrMethodDef
deriving DecidableEq, Repr, Inhabited

namespace CodedKind

/-- The name of a kind of coded indices. -/
def name : CodedKind → String
  | typeDefOrRef => "TypeDefOrRef"
  | hasConstant => "HasConstant"
  | hasCustomAttribute => "HasCustomAttribute"
  | hasFieldMarshal => "HasFieldMarshal"
  | hasDeclSecurity => "HasDeclSecurity"
  | memberRefParent => "MemberRefParent"
  | hasSemantics => "HasSemantics"
  | methodDefOrRef => "MethodDefOrRef"
  | memberForwarded => "MemberForwarded"
  | implementation => "Implementation"
  | customAttributeType => "CustomAttributeType"
  | resolutionScope => "ResolutionScope"
  | typeOrMethodDef => "TypeOrMethodDef"

/-- All kinds in their order. -/
def all : List CodedKind :=
  [typeDefOrRef, hasConstant, hasCustomAttribute, hasFieldMarshal, hasDeclSecurity,
    memberRefParent, hasSemantics, methodDefOrRef, memberForwarded, implementation,
    customAttributeType, resolutionScope, typeOrMethodDef]

/-- The tables between which the tag selects, in the order of tags. The constructor of an
attribute is a method or a member reference; the unused tags select the same tables. -/
def tables : CodedKind → List TableId
  | typeDefOrRef => [.typeDef, .typeRef, .typeSpec]
  | hasConstant => [.field, .param, .property]
  | hasCustomAttribute =>
    [.methodDef, .field, .typeRef, .typeDef, .param, .interfaceImpl, .memberRef, .module,
      .declSecurity, .property, .event, .standAloneSig, .moduleRef, .typeSpec, .assembly,
      .assemblyRef, .file, .exportedType, .manifestResource, .genericParam,
      .genericParamConstraint, .methodSpec]
  | hasFieldMarshal => [.field, .param]
  | hasDeclSecurity => [.typeDef, .methodDef, .assembly]
  | memberRefParent => [.typeDef, .typeRef, .moduleRef, .methodDef, .typeSpec]
  | hasSemantics => [.event, .property]
  | methodDefOrRef => [.methodDef, .memberRef]
  | memberForwarded => [.field, .methodDef]
  | implementation => [.file, .assemblyRef, .exportedType]
  | customAttributeType => [.methodDef, .methodDef, .methodDef, .memberRef, .memberRef]
  | resolutionScope => [.module, .moduleRef, .assemblyRef, .typeRef]
  | typeOrMethodDef => [.typeDef, .methodDef]

/-- How many low bits hold the tag: enough for every place in `tables`. -/
def tagBits (k : CodedKind) : Nat :=
  (k.tables.length - 1).log2 + 1

end CodedKind

/-! ## Columns -/

/-- The kinds of columns. -/
inductive Column where
  /-- A number in two bytes. -/
  | word16
  /-- A number in four bytes. -/
  | word32
  /-- A place in the heap of strings. -/
  | string
  /-- A place in the heap of identifiers. -/
  | guid
  /-- A place in the heap of blobs. -/
  | blob
  /-- A row of one table. -/
  | row (table : TableId)
  /-- A row of one of several tables. -/
  | coded (kind : CodedKind)
deriving DecidableEq, Repr, Inhabited

/-- The columns of a table from left to right. -/
def TableId.columns : TableId → List Column
  | module => [.word16, .string, .guid, .guid, .guid]
  | typeRef => [.coded .resolutionScope, .string, .string]
  | typeDef =>
    [.word32, .string, .string, .coded .typeDefOrRef, .row .field, .row .methodDef]
  | fieldPtr => [.row .field]
  | field => [.word16, .string, .blob]
  | methodPtr => [.row .methodDef]
  | methodDef => [.word32, .word16, .word16, .string, .blob, .row .param]
  | paramPtr => [.row .param]
  | param => [.word16, .word16, .string]
  | interfaceImpl => [.row .typeDef, .coded .typeDefOrRef]
  | memberRef => [.coded .memberRefParent, .string, .blob]
  | constant => [.word16, .coded .hasConstant, .blob]
  | customAttribute => [.coded .hasCustomAttribute, .coded .customAttributeType, .blob]
  | fieldMarshal => [.coded .hasFieldMarshal, .blob]
  | declSecurity => [.word16, .coded .hasDeclSecurity, .blob]
  | classLayout => [.word16, .word32, .row .typeDef]
  | fieldLayout => [.word32, .row .field]
  | standAloneSig => [.blob]
  | eventMap => [.row .typeDef, .row .event]
  | eventPtr => [.row .event]
  | event => [.word16, .string, .coded .typeDefOrRef]
  | propertyMap => [.row .typeDef, .row .property]
  | propertyPtr => [.row .property]
  | property => [.word16, .string, .blob]
  | methodSemantics => [.word16, .row .methodDef, .coded .hasSemantics]
  | methodImpl => [.row .typeDef, .coded .methodDefOrRef, .coded .methodDefOrRef]
  | moduleRef => [.string]
  | typeSpec => [.blob]
  | implMap => [.word16, .coded .memberForwarded, .string, .row .moduleRef]
  | fieldRva => [.word32, .row .field]
  | encLog => [.word32, .word32]
  | encMap => [.word32]
  | assembly =>
    [.word32, .word16, .word16, .word16, .word16, .word32, .blob, .string, .string]
  | assemblyProcessor => [.word32]
  | assemblyOs => [.word32, .word32, .word32]
  | assemblyRef =>
    [.word16, .word16, .word16, .word16, .word32, .blob, .string, .string, .blob]
  | assemblyRefProcessor => [.word32, .row .assemblyRef]
  | assemblyRefOs => [.word32, .word32, .word32, .row .assemblyRef]
  | file => [.word32, .string, .blob]
  | exportedType => [.word32, .word32, .string, .string, .coded .implementation]
  | manifestResource => [.word32, .word32, .string, .coded .implementation]
  | nestedClass => [.row .typeDef, .row .typeDef]
  | genericParam => [.word16, .word16, .coded .typeOrMethodDef, .string]
  | methodSpec => [.coded .methodDefOrRef, .blob]
  | genericParamConstraint => [.row .genericParam, .coded .typeDefOrRef]

end TypeInventory
