import TypeInventory.Module.Names

set_option relaxedAutoImplicit false
set_option autoImplicit false

/-!
# Members of types

A type owns a run of the fields and a run of the methods, and a method owns a run of the
parameters. A run stops where that of the next owner starts. Runs that leave their table are cut
with a warning; members that cannot be read make their type fail.

## Main definitions

* `ModuleTables.memberRun` — the members that an owner owns.
* `MetadataModule.resolveField`, `MetadataModule.resolveMethod` — one member.
* `MetadataModule.resolveType` — one type with its members.
-/

namespace TypeInventory

/-! ## Runs of members -/

/-- The warning about a run that leaves a table of `count` rows. -/
def runWarning (list : MemberList) (owner : Token) (start stop count : Nat) : Diagnostic where
  severity := .warning
  category := .table
  message := s!"{list.text} list {start}..{stop} exceeds table of {count} rows, clamped"
  token? := some owner

/-- The rows of the members that `owner` owns, if its run starts at `start` and the next one, if
there is one, at `next?`. A run that starts outside the list, or that stops before it starts, is
empty; a run that stops outside the list stops at its end. -/
def ModuleTables.memberRun (m : ModuleTables) (list : MemberList) (owner : Token) (start : Nat)
    (next? : Option Nat) : Resolution (List Nat) :=
  let count := m.memberCount list
  let stop := next?.getD (count + 1)
  let warning := runWarning list owner start stop count
  if start = 0 ∨ count + 1 < start ∨ stop < start then
    .withWarnings [warning] []
  else if count + 1 < stop then
    .withWarnings [warning] (m.membersBetween list start (count + 1))
  else
    .withWarnings [] (m.membersBetween list start stop)

/-! ## Attributes -/

/-- The bit of a member's attributes that makes it belong to the type. -/
def staticBit : Nat := 4

/-- The bit of a method's attributes that ends overriding. -/
def finalBit : Nat := 5

/-- The bit of a method's attributes that allows overriding. -/
def virtualBit : Nat := 6

/-- The bit of a method's attributes that leaves the body to others. -/
def abstractBit : Nat := 10

/-- The bit of a field's attributes that leaves its assignment to constructors. -/
def readOnlyBit : Nat := 5

/-- The bit of a field's attributes that fixes its value at compile time. -/
def constantBit : Nat := 6

/-- The bit of a parameter's attributes that marks it as assigned by the method. -/
def outBit : Nat := 1

/-- The bit of a parameter's attributes that marks it as optional. -/
def optionalBit : Nat := 4

/-- The bit of a type's attributes that makes it an interface. -/
def interfaceBit : Nat := 5

/-- The names of constructors, which are not listed. -/
def constructorNames : List String :=
  [".ctor", ".cctor"]

/-- The name of the type that holds what belongs to no type; it is not listed. -/
def moduleTypeName : String :=
  "<Module>"

/-- The token of a type definition. -/
def TypeDefRow.token (row : TypeDefRow) : Token :=
  TableId.typeDef.token row.rid

/-- The token of a method. -/
def MethodDefRow.token (row : MethodDefRow) : Token :=
  TableId.methodDef.token row.rid

/-- The token of a field. -/
def FieldRow.token (row : FieldRow) : Token :=
  TableId.field.token row.rid

namespace MetadataModule

variable (m : MetadataModule)

/-! ## Fields -/

/-- The field in row `rid` of a type with the given generic parameters. -/
def resolveField (typeParameters : List String) (rid : Nat) : Except Fault FieldInfo := do
  match m.fields.get? rid with
  | none => throw (.malformed (.missingField rid))
  | some row =>
    let name ← m.strings.get row.name
    let blob ← m.blobs.get row.signature
    let sig ← TypeSig.ofFieldBlob blob
    let type ← m.signatureName { typeParameters } sig
    return {
      name
      token := row.token
      type
      access := .ofAttributes row.flags
      isStatic := row.flags.testBit staticBit
      isReadOnly := row.flags.testBit readOnlyBit
      isConstant := row.flags.testBit constantBit
      isGenerated := m.isGenerated row.token }

/-! ## Methods -/

/-- The rows of parameters by the position that they describe; the last row about a position
counts, and rows that cannot be read are left out. -/
def paramsByPosition (rids : List Nat) : Std.TreeMap Nat ParamRow :=
  rids.foldl
    (fun rows rid =>
      match m.params.get? rid with
      | some row => rows.insert row.sequence row
      | none => rows)
    ∅

/-- The parameter at a position, with the name and the flags of the row about that position. -/
def resolveParam (scope : GenericScope) (rows : Std.TreeMap Nat ParamRow) (param : ParamSig)
    (position : Nat) : Except Fault ParameterInfo := do
  let type ← m.paramName scope param
  match rows[position]? with
  | none => return { type, isRef := param.byRef }
  | some row =>
    let name ← m.strings.get row.name
    return {
      name
      type
      isRef := param.byRef
      isOut := row.flags.testBit outBit
      isOptional := row.flags.testBit optionalBit }

/-- The method in row `rid` of a type with the given generic parameters; nothing for a
constructor. -/
def resolveMethod (typeParameters : List String) (rid : Nat) :
    Resolution (Option MethodInfo) := do
  match m.methods.get? rid with
  | none => Resolution.ofExcept (throw (.malformed (.missingMethod rid)))
  | some row =>
    let name ← m.strings.get row.name
    if constructorNames.contains name then
      return none
    let blob ← m.blobs.get row.signature
    let sig ← MethodSig.ofBlob blob
    let genericParameters := (m.methodGenerics[rid]?).getD []
    let scope : GenericScope := ⟨typeParameters, genericParameters⟩
    let returnType ← m.paramName scope sig.returns
    let run ← m.memberRun .param row.token row.paramList
      ((m.methods.get? (rid + 1)).map MethodDefRow.paramList)
    let rows := m.paramsByPosition run
    let parameters : List ParameterInfo ← Resolution.ofExcept <|
      (sig.params.zipIdx 1).mapM fun (param, position) => m.resolveParam scope rows param position
    return some {
      name
      token := row.token
      returnType
      parameters
      access := .ofAttributes row.flags
      isStatic := row.flags.testBit staticBit
      inheritance := .ofFlags (row.flags.testBit virtualBit) (row.flags.testBit finalBit)
        (row.flags.testBit abstractBit)
      genericParameters
      isGenerated := m.isGenerated row.token }

/-! ## Types -/

/-- The kind of a type, by its attributes and its base type. -/
def typeKind (row : TypeDefRow) : Except Fault TypeKind := do
  if row.flags.testBit interfaceBit then
    return .interfaceType
  else
    match ← m.baseName? row.baseType with
    | some "System.Enum" => return .enumeration
    | some "System.ValueType" => return .valueType
    | _ => return .referenceType

/-- The type of a row, with its members; nothing for the type that holds what belongs to no
type. -/
def resolveType (row : TypeDefRow) : Resolution (Option TypeInfo) := do
  let name ← m.strings.get row.typeName
  if name = moduleTypeName then
    return none
  let fullName ← m.fullName row.rid
  let kind ← m.typeKind row
  let typeParameters := (m.typeGenerics[row.rid]?).getD []
  let next? := m.typeDefs.get? (row.rid + 1)
  let fieldRows ← m.memberRun .field row.token row.fieldList (next?.map TypeDefRow.fieldList)
  let fields ← Resolution.forEach
    (fun rid => Resolution.ofExcept (m.resolveField typeParameters rid)) fieldRows
  let methodRows ← m.memberRun .method row.token row.methodList (next?.map TypeDefRow.methodList)
  let methods ← Resolution.forEach (m.resolveMethod typeParameters) methodRows
  return some {
    name
    fullName
    token := row.token
    kind
    methods := methods.filterMap id
    fields
    isGenerated := m.isGenerated row.token }

end MetadataModule

end TypeInventory
