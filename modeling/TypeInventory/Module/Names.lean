import TypeInventory.Descriptor
import TypeInventory.Module.Index
import TypeInventory.Signature.Reader

set_option relaxedAutoImplicit false
set_option autoImplicit false

/-!
# Names of types

The full name of a type leads through the types that enclose it. The name of a type in a signature
follows tokens, constructed types and enclosing types, each of which goes one level deeper; at
`nestingLimit` levels it is given up.

## Main definitions

* `MetadataModule.fullName` — the full name of a defined type.
* `GenericScope` — the names of the generic parameters that a signature may mention.
* `MetadataModule.signatureName`, `MetadataModule.tokenNameWithin` — the type that a signature or a
  token stands for.
-/

namespace TypeInventory

/-! ## Full names -/

/-- A name behind its namespace; an empty namespace is left out. -/
def qualifiedName (typeNamespace name : String) : String :=
  if typeNamespace.isEmpty then name else typeNamespace ++ "." ++ name

/-- Only the empty namespace is left out. -/
theorem qualifiedName_eq_ite (typeNamespace name : String) :
    qualifiedName typeNamespace name =
      if typeNamespace = "" then name else typeNamespace ++ "." ++ name := by
  simp only [qualifiedName, String.isEmpty_iff]

namespace MetadataModule

/-- The parts of the full name of the type in row `rid`, outermost type first, in front of `inner`.
The chain of enclosing types may go up `levels` times. -/
def nameParts (m : MetadataModule) (levels rid : Nat) (inner : List String) :
    Except Fault (List String) := do
  let (typeNamespace, name) ← m.typeDefNames rid
  match m.enclosing[rid]?, levels with
  | none, _ => return qualifiedName typeNamespace name :: inner
  | some _, 0 => throw .nesting
  | some outer, levels + 1 => m.nameParts levels outer (name :: inner)
termination_by structural levels

/-- The full name of the type in row `rid`: namespace and name of the outermost type, then the
names of the nested types, each after a plus sign. -/
def fullName (m : MetadataModule) (rid : Nat) : Except Fault String :=
  return "+".intercalate (← m.nameParts nestingLimit rid [])

/-- The full name of a base type; nothing if there is none or if it is a constructed type. -/
def baseName? (m : MetadataModule) (base : CodedIndex) : Except Fault (Option String) :=
  if base.isNull then
    return none
  else
    match base.table with
    | .typeDef => return some (← m.fullName base.row)
    | .typeRef => do
      let (typeNamespace, name) ← m.typeRefNames base.row
      return some (qualifiedName typeNamespace name)
    | _ => return none

end MetadataModule

/-! ## Types in signatures -/

/-- The generic parameters that a signature may mention. -/
structure GenericScope where
  /-- Those of the enclosing type. -/
  typeParameters : List String := []
  /-- Those of the enclosing method. -/
  methodParameters : List String := []
deriving DecidableEq, Repr, Inhabited

/-- The types that have a keyword, all of them in the namespace `System`. -/
def keywordTypes : List String :=
  ["Void", "Boolean", "Char", "SByte", "Byte", "Int16", "UInt16", "Int32", "UInt32", "Int64",
    "UInt64", "Single", "Double", "Decimal", "String", "Object"]

/-- Whether a type has a keyword. -/
def hasKeyword (typeNamespace name : String) : Bool :=
  typeNamespace == "System" && keywordTypes.contains name

/-- Whether a generic type is the one that stands for values that may be absent. -/
def isNullableType (typeNamespace name : String) : Bool :=
  typeNamespace == "System" && name == "Nullable\x601"

/-- The name of a type without the types that enclose it, as the target of a pointer is shown. -/
def TypeName.simpleName : TypeName → String
  | .primitive name => name
  | .plain name => name
  | .generic base _ => base
  | .nested _ name => name
  | .array element => element.simpleName ++ "[]"
  | .byRef element => element.simpleName
  | .nullable element => element.simpleName

/-- Bits of a type's attributes that tell its visibility. -/
def visibilityBits : Nat := 8

/-- The visibility of a nested type that is public. -/
def nestedPublic : Nat := 2

/-- An instantiation. That of the type of values that may be absent has a form of its own. -/
def instantiationName (typeNamespace name : String) (args : List TypeName) : TypeName :=
  match args with
  | [arg] => if isNullableType typeNamespace name then .nullable arg else .generic name [arg]
  | _ => .generic name args

namespace MetadataModule

variable (m : MetadataModule) (scope : GenericScope)

/-- Namespace and name of the generic type that an instantiation starts from. -/
def instantiatedType : TypeSig → Except Fault (String × String)
  | .classType token | .valueType token => do
    match ← m.tokenNames? token with
    | some names => return names
    | none => throw (.malformed (.instantiationOfToken token))
  | _ => throw (.malformed .instantiationOfNonType)

mutual

/-- The type that a signature stands for, at most `levels` levels deep. -/
def signatureNameWithin : Nat → TypeSig → Except Fault TypeName
  | 0, _ => throw .nesting
  | levels + 1, sig =>
    match sig with
    | .primitive p => return .primitive p.runtimeName
    | .classType token => tokenNameWithin levels token
    | .valueType token => tokenNameWithin levels token
    | .typeParameter i => return .plain (scope.typeParameters[i]?.getD s!"!{i}")
    | .methodParameter i => return .plain (scope.methodParameters[i]?.getD s!"!!{i}")
    | .vector element => return .array (← signatureNameWithin levels element)
    | .array element _ => return .array (← signatureNameWithin levels element)
    | .byRef target => return .byRef (← signatureNameWithin levels target)
    | .pinned target => signatureNameWithin levels target
    | .pointer target => do
      let name ← signatureNameWithin levels target
      return .plain (name.simpleName ++ "*")
    | .functionPointer _ => return .primitive "IntPtr"
    | .instantiation base args => do
      let (typeNamespace, name) ← m.instantiatedType base
      let args ← args.mapM (signatureNameWithin levels)
      return instantiationName typeNamespace name args
termination_by structural levels => levels

/-- The type that a token names, at most `levels` levels deep. -/
def tokenNameWithin : Nat → Token → Except Fault TypeName
  | 0, _ => throw .nesting
  | levels + 1, token =>
    if token.table = TableId.typeDef.number then
      match m.typeDefs.get? token.row with
      | none => throw (.malformed (.danglingTypeDef token))
      | some row => do
        let typeNamespace ← m.strings.get row.typeNamespace
        let name ← m.strings.get row.typeName
        if hasKeyword typeNamespace name then
          return .primitive name
        else
          match m.typeGenerics[token.row]?, m.enclosing[token.row]? with
          | some parameters, _ => return .generic name (parameters.map .plain)
          | none, some outer =>
            if row.flags % visibilityBits = nestedPublic then
              return .plain name
            else
              return .nested (← tokenNameWithin levels (TableId.typeDef.token outer)) name
          | none, none => return .plain name
    else if token.table = TableId.typeRef.number then do
      let (typeNamespace, name) ← m.typeRefNames token.row
      if hasKeyword typeNamespace name then return .primitive name else return .plain name
    else if token.table = TableId.typeSpec.number then
      match m.typeSpecs.get? token.row with
      | none => throw (.malformed (.danglingTypeSpec token))
      | some row => do
        let blob ← m.blobs.get row.signature
        let sig ← TypeSig.ofBlob blob
        signatureNameWithin levels sig
    else
      throw (.malformed (.typeToken token))
termination_by structural levels => levels

end

/-- The type that a signature stands for. -/
def signatureName (sig : TypeSig) : Except Fault TypeName :=
  m.signatureNameWithin scope nestingLimit sig

/-- The type of a parameter or a return value, which may be passed by reference. -/
def paramName (param : ParamSig) : Except Fault TypeName := do
  let name ← m.signatureName scope param.type
  return if param.byRef then .byRef name else name

end MetadataModule

end TypeInventory
