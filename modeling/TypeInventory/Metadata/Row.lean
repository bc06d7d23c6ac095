import TypeInventory.Metadata.Layout

set_option relaxedAutoImplicit false
set_option autoImplicit false

/-!
# Rows

The rows of the tables that are needed to describe types and their members. A row is read at the
cursor, column by column; its number is not stored in it and is given from outside.

## Main definitions

* `MetadataRow` — what all kinds of rows have in common: their table and how they are read.
* `TypeDefRow`, `FieldRow`, `MethodDefRow`, … — the kinds of rows.
-/

namespace TypeInventory

/-- A kind of rows: the table they belong to, and how row `rid` is read at the cursor. -/
class MetadataRow (α : Type) where
  /-- The table that holds the rows. -/
  table : TableId
  /-- Reads the row with number `rid`. -/
  read (layout : Layout) (rid : Nat) : Reader α

namespace Reader

/-- The next place in the heap of strings. -/
def stringIndex (layout : Layout) : Reader Nat :=
  narrowOrWide layout.wideStrings

/-- The next place in the heap of identifiers. -/
def guidIndex (layout : Layout) : Reader Nat :=
  narrowOrWide layout.wideGuids

/-- The next place in the heap of blobs. -/
def blobIndex (layout : Layout) : Reader Nat :=
  narrowOrWide layout.wideBlobs

/-- The next row number of a table. -/
def rowIndex (layout : Layout) (t : TableId) : Reader Nat :=
  narrowOrWide (layout.isWide t)

end Reader

open Reader

/-! ## The module and its types -/

/-- The module itself. -/
structure ModuleRow where
  /-- Row number. -/
  rid : Nat
  /-- Reserved. -/
  generation : Nat
  /-- Place of the name. -/
  name : Nat
  /-- Place of the identifier of this version. -/
  mvid : Nat
deriving DecidableEq, Repr, Inhabited

instance : MetadataRow ModuleRow where
  table := .module
  read layout rid := do
    let generation ← word 2
    let name ← stringIndex layout
    let mvid ← guidIndex layout
    let _ ← guidIndex layout
    let _ ← guidIndex layout
    return { rid, generation, name, mvid }

/-- A type that is defined elsewhere. -/
structure TypeRefRow where
  /-- Row number. -/
  rid : Nat
  /-- Where the type is defined. -/
  resolutionScope : CodedIndex
  /-- Place of the name. -/
  typeName : Nat
  /-- Place of the namespace. -/
  typeNamespace : Nat
deriving DecidableEq, Repr, Inhabited

instance : MetadataRow TypeRefRow where
  table := .typeRef
  read layout rid := do
    let resolutionScope ← coded layout .resolutionScope
    let typeName ← stringIndex layout
    let typeNamespace ← stringIndex layout
    return { rid, resolutionScope, typeName, typeNamespace }

/-- A type that is defined in this module. -/
structure TypeDefRow where
  /-- Row number. -/
  rid : Nat
  /-- Attributes. -/
  flags : Nat
  /-- Place of the name. -/
  typeName : Nat
  /-- Place of the namespace. -/
  typeNamespace : Nat
  /-- The base type. -/
  baseType : CodedIndex
  /-- Where the run of the type's fields starts. -/
  fieldList : Nat
  /-- Where the run of the type's methods starts. -/
  methodList : Nat
deriving DecidableEq, Repr, Inhabited

instance : MetadataRow TypeDefRow where
  table := .typeDef
  read layout rid := do
    let flags ← word 4
    let typeName ← stringIndex layout
    let typeNamespace ← stringIndex layout
    let baseType ← coded layout .typeDefOrRef
    let fieldList ← rowIndex layout .field
    let methodList ← rowIndex layout .methodDef
    return { rid, flags, typeName, typeNamespace, baseType, fieldList, methodList }

/-- Links a nested type to the type that encloses it. -/
structure NestedClassRow where
  /-- Row number. -/
  rid : Nat
  /-- The nested type. -/
  nestedClass : Nat
  /-- The enclosing type. -/
  enclosingClass : Nat
deriving DecidableEq, Repr, Inhabited

instance : MetadataRow NestedClassRow where
  table := .nestedClass
  read layout rid := do
    let nestedClass ← rowIndex layout .typeDef
    let enclosingClass ← rowIndex layout .typeDef
    return { rid, nestedClass, enclosingClass }

/-- A generic parameter of a type or a method. -/
structure GenericParamRow where
  /-- Row number. -/
  rid : Nat
  /-- Position among the parameters of the owner, counted from zero. -/
  number : Nat
  /-- Attributes. -/
  flags : Nat
  /-- The type or method. -/
  owner : CodedIndex
  /-- Place of the name. -/
  name : Nat
deriving DecidableEq, Repr, Inhabited

instance : MetadataRow GenericParamRow where
  table := .genericParam
  read layout rid := do
    let number ← word 2
    let flags ← word 2
    let owner ← coded layout .typeOrMethodDef
    let name ← stringIndex layout
    return { rid, number, flags, owner, name }

/-- A constructed type. -/
structure TypeSpecRow where
  /-- Row number. -/
  rid : Nat
  /-- Place of the signature. -/
  signature : Nat
deriving DecidableEq, Repr, Inhabited

instance : MetadataRow TypeSpecRow where
  table := .typeSpec
  read layout rid := do
    let signature ← blobIndex layout
    return { rid, signature }

/-! ## Members -/

/-- A field. -/
structure FieldRow where
  /-- Row number. -/
  rid : Nat
  /-- Attributes. -/
  flags : Nat
  /-- Place of the name. -/
  name : Nat
  /-- Place of the signature. -/
  signature : Nat
deriving DecidableEq, Repr, Inhabited

instance : MetadataRow FieldRow where
  table := .field
  read layout rid := do
    let flags ← word 2
    let name ← stringIndex layout
    let signature ← blobIndex layout
    return { rid, flags, name, signature }

/-- A method. -/
structure MethodDefRow where
  /-- Row number. -/
  rid : Nat
  /-- Address of the body; zero if there is none. -/
  rva : Nat
  /-- Attributes of the implementation. -/
  implFlags : Nat
  /-- Attributes. -/
  flags : Nat
  /-- Place of the name. -/
  name : Nat
  /-- Place of the signature. -/
  signature : Nat
  /-- Where the run of the method's parameters starts. -/
  paramList : Nat
deriving DecidableEq, Repr, Inhabited

instance : MetadataRow MethodDefRow where
  table := .methodDef
  read layout rid := do
    let rva ← word 4
    let implFlags ← word 2
    let flags ← word 2
    let name ← stringIndex layout
    let signature ← blobIndex layout
    let paramList ← rowIndex layout .param
    return { rid, rva, implFlags, flags, name, signature, paramList }

/-- A parameter, or what is said about a return value. -/
structure ParamRow where
  /-- Row number. -/
  rid : Nat
  /-- Attributes. -/
  flags : Nat
  /-- Position, counted from one; zero for the return value. -/
  sequence : Nat
  /-- Place of the name. -/
  name : Nat
deriving DecidableEq, Repr, Inhabited

instance : MetadataRow ParamRow where
  table := .param
  read layout rid := do
    let flags ← word 2
    let sequence ← word 2
    let name ← stringIndex layout
    return { rid, flags, sequence, name }

/-- A member of another type, possibly of another module. -/
structure MemberRefRow where
  /-- Row number. -/
  rid : Nat
  /-- What declares the member. -/
  parent : CodedIndex
  /-- Place of the name. -/
  name : Nat
  /-- Place of the signature. -/
  signature : Nat
deriving DecidableEq, Repr, Inhabited

instance : MetadataRow MemberRefRow where
  table := .memberRef
  read layout rid := do
    let parent ← coded layout .memberRefParent
    let name ← stringIndex layout
    let signature ← blobIndex layout
    return { rid, parent, name, signature }

/-- An attribute that something carries. -/
structure CustomAttributeRow where
  /-- Row number. -/
  rid : Nat
  /-- What carries the attribute. -/
  parent : CodedIndex
  /-- The method that constructs the attribute. -/
  maker : CodedIndex
  /-- Place of the arguments. -/
  value : Nat
deriving DecidableEq, Repr, Inhabited

instance : MetadataRow CustomAttributeRow where
  table := .customAttribute
  read layout rid := do
    let parent ← coded layout .hasCustomAttribute
    let maker ← coded layout .customAttributeType
    let value ← blobIndex layout
    return { rid, parent, maker, value }

/-! ## Pointers

Unoptimized modules order their members through tables of pointers. -/

/-- Points to a field. -/
structure FieldPtrRow where
  /-- Row number. -/
  rid : Nat
  /-- The field. -/
  field : Nat
deriving DecidableEq, Repr, Inhabited

instance : MetadataRow FieldPtrRow where
  table := .fieldPtr
  read layout rid := do
    let field ← rowIndex layout .field
    return { rid, field }

/-- Points to a method. -/
structure MethodPtrRow where
  /-- Row number. -/
  rid : Nat
  /-- The method. -/
  method : Nat
deriving DecidableEq, Repr, Inhabited

instance : MetadataRow MethodPtrRow where
  table := .methodPtr
  read layout rid := do
    let method ← rowIndex layout .methodDef
    return { rid, method }

/-- Points to a parameter. -/
structure ParamPtrRow where
  /-- Row number. -/
  rid : Nat
  /-- The parameter. -/
  param : Nat
deriving DecidableEq, Repr, Inhabited

instance : MetadataRow ParamPtrRow where
  table := .paramPtr
  read layout rid := do
    let param ← rowIndex layout .param
    return { rid, param }

/-! ## Assemblies -/

/-- The assembly that the module belongs to. -/
structure AssemblyRow where
  /-- Row number. -/
  rid : Nat
  /-- The hash algorithm of its files. -/
  hashAlgId : Nat
  /-- First part of the version. -/
  majorVersion : Nat
  /-- Second part of the version. -/
  minorVersion : Nat
  /-- Third part of the version. -/
  buildNumber : Nat
  /-- Fourth part of the version. -/
  revisionNumber : Nat
  /-- Attributes. -/
  flags : Nat
  /-- Place of the public key. -/
  publicKey : Nat
  /-- Place of the name. -/
  name : Nat
  /-- Place of the culture. -/
  culture : Nat
deriving DecidableEq, Repr, Inhabited

instance : MetadataRow AssemblyRow where
  table := .assembly
  read layout rid := do
    let hashAlgId ← word 4
    let majorVersion ← word 2
    let minorVersion ← word 2
    let buildNumber ← word 2
    let revisionNumber ← word 2
    let flags ← word 4
    let publicKey ← blobIndex layout
    let name ← stringIndex layout
    let culture ← stringIndex layout
    return { rid, hashAlgId, majorVersion, minorVersion, buildNumber, revisionNumber, flags,
             publicKey, name, culture }

/-- An assembly that the module refers to. -/
structure AssemblyRefRow where
  /-- Row number. -/
  rid : Nat
  /-- First part of the version. -/
  majorVersion : Nat
  /-- Second part of the version. -/
  minorVersion : Nat
  /-- Third part of the version. -/
  buildNumber : Nat
  /-- Fourth part of the version. -/
  revisionNumber : Nat
  /-- Attributes. -/
  flags : Nat
  /-- Place of the public key or of its token. -/
  publicKeyOrToken : Nat
  /-- Place of the name. -/
  name : Nat
  /-- Place of the culture. -/
  culture : Nat
  /-- Place of the hash. -/
  hashValue : Nat
deriving DecidableEq, Repr, Inhabited

instance : MetadataRow AssemblyRefRow where
  table := .assemblyRef
  read layout rid := do
    let majorVersion ← word 2
    let minorVersion ← word 2
    let buildNumber ← word 2
    let revisionNumber ← word 2
    let flags ← word 4
    let publicKeyOrToken ← blobIndex layout
    let name ← stringIndex layout
    let culture ← stringIndex layout
    let hashValue ← blobIndex layout
    return { rid, majorVersion, minorVersion, buildNumber, revisionNumber, flags,
             publicKeyOrToken, name, culture, hashValue }

end TypeInventory
