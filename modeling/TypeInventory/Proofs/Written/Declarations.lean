import TypeInventory.Module.Loading
import TypeInventory.Proofs.Signature.Encoding
import TypeInventory.Proofs.Written.Heaps

set_option relaxedAutoImplicit false
set_option autoImplicit false

/-!
# Declarations

A module, said without tables and heaps: the types that it declares, with their fields, methods and
parameters. From it follow the descriptors that loading has to give, and the rows of the tables in
which the declarations are stored: fields, methods and parameters of all owners one behind the
other, and in each owner the number of the row with which its own start.

## Main definitions

* `MemberType`, `ParamDecl`, `FieldDecl`, `MethodDecl`, `TypeDecl`, `ModuleDecl` — declarations.
* `ModuleDecl.infos` — the descriptors of the declared types.
* `MemberType.signature`, `MethodDecl.signature` — the signatures of members.
* `ModuleDecl.fieldStart`, `ModuleDecl.methodStart`, `ModuleDecl.paramStart` — where members start.
* `Placement`, `Placement.typeDefRow`, … — places in heaps, and the rows with these places.

## Main results

* `getElem?_flatMap_of_getElem?` — the members of one owner among those of all.
-/

namespace TypeInventory

/-! ## Declarations -/

/-- The type of a member: built in, constructed, or the type at a position of the module. -/
inductive MemberType where
  /-- A built-in type. -/
  | primitive (type : PrimitiveType)
  /-- An array of one dimension that starts at zero. -/
  | vector (element : MemberType)
  /-- A pointer. -/
  | pointer (target : MemberType)
  /-- A reference type of the module. -/
  | classType (index : ℕ)
  /-- A value type of the module. -/
  | valueType (index : ℕ)

/-- A parameter. -/
structure ParamDecl where
  /-- Its name. -/
  name : String
  /-- Its attributes. -/
  flags : UInt16
  /-- Its type. -/
  type : MemberType

/-- A field. -/
structure FieldDecl where
  /-- Its name. -/
  name : String
  /-- Its attributes. -/
  flags : UInt16
  /-- Its type. -/
  type : MemberType

/-- A method. -/
structure MethodDecl where
  /-- Its name. -/
  name : String
  /-- Its attributes. -/
  flags : UInt16
  /-- What it returns. -/
  returns : MemberType
  /-- Its parameters. -/
  params : List ParamDecl

/-- A type that no other type encloses and that has no base. -/
structure TypeDecl where
  /-- Its namespace; empty if it has none. -/
  typeNamespace : String
  /-- Its name. -/
  name : String
  /-- Its attributes. -/
  flags : UInt32
  /-- Its fields. -/
  fields : List FieldDecl
  /-- Its methods. -/
  methods : List MethodDecl

/-- A module. -/
structure ModuleDecl where
  /-- Its name. -/
  name : String
  /-- Its types. -/
  types : List TypeDecl

/-! ## Descriptors -/

/-- The type of a member as it is shown, among the types of the module. -/
def MemberType.shown (types : List TypeDecl) : MemberType → TypeName
  | .primitive p => .primitive p.runtimeName
  | .vector element => .array (element.shown types)
  | .pointer target => .plain ((target.shown types).simpleName ++ "*")
  | .classType index => .plain ((types[index]?.map TypeDecl.name).getD "")
  | .valueType index => .plain ((types[index]?.map TypeDecl.name).getD "")

/-- The descriptor of a parameter. -/
def ParamDecl.info (types : List TypeDecl) (p : ParamDecl) : ParameterInfo where
  name := p.name
  type := p.type.shown types
  isOut := p.flags.toNat.testBit outBit
  isRef := false
  isOptional := p.flags.toNat.testBit optionalBit

/-- The token of a row, with the number of the table in front of the lowest 24 bits. -/
def TableId.tokenOfRow (t : TableId) (row : ℕ) : Token :=
  ⟨UInt32.ofNat (t.number <<< 24 ||| row)⟩

/-- Rows of 24 bits have this token. -/
lemma TableId.token_eq_tokenOfRow (t : TableId) {row : ℕ} (h : row < 2 ^ 24) :
    t.token row = t.tokenOfRow row := by
  have hnumber : t.number < 0x100 := by
    cases t <;> decide
  have hrow : row % 0x1000000 = row := Nat.mod_eq_of_lt h
  rw [token, Token.ofParts, tokenOfRow, ← Nat.shiftLeft_add_eq_or_of_lt h, Nat.shiftLeft_eq,
    Nat.mod_eq_of_lt hnumber, hrow]

/-- The descriptor of the field in a given row. -/
def FieldDecl.info (types : List TypeDecl) (f : FieldDecl) (row : ℕ) : FieldInfo where
  name := f.name
  token := TableId.field.tokenOfRow row
  type := f.type.shown types
  access := .ofAttributes f.flags.toNat
  isStatic := f.flags.toNat.testBit staticBit
  isReadOnly := f.flags.toNat.testBit readOnlyBit
  isConstant := f.flags.toNat.testBit constantBit
  isGenerated := false

/-- The descriptor of the method in a given row; nothing for a constructor. -/
def MethodDecl.info? (types : List TypeDecl) (m : MethodDecl) (row : ℕ) : Option MethodInfo :=
  if constructorNames.contains m.name then
    none
  else
    some {
      name := m.name
      token := TableId.methodDef.tokenOfRow row
      returnType := m.returns.shown types
      parameters := m.params.map (ParamDecl.info types)
      access := .ofAttributes m.flags.toNat
      isStatic := m.flags.toNat.testBit staticBit
      inheritance := .ofFlags (m.flags.toNat.testBit virtualBit) (m.flags.toNat.testBit finalBit)
        (m.flags.toNat.testBit abstractBit)
      genericParameters := []
      isGenerated := false }

/-- The full name of a type: its name, behind its namespace and a point if it has one. -/
def TypeDecl.fullName (t : TypeDecl) : String :=
  if t.typeNamespace = "" then t.name else t.typeNamespace ++ "." ++ t.name

/-! ## Rows of members -/

/-- The row with which the members of an owner start, if the members of all owners lie one behind
the other. -/
def memberStart {α β : Type} (members : α → List β) (owners : List α) (i : ℕ) : ℕ :=
  1 + ((owners.take i).flatMap members).length

/-- The members of one owner among those of all. -/
lemma getElem?_flatMap_of_getElem? {α β : Type} {members : α → List β} {owners : List α} {i : ℕ}
    {owner : α} (h : owners[i]? = some owner) {j : ℕ} (hj : j < (members owner).length) :
    (owners.flatMap members)[((owners.take i).flatMap members).length + j]? =
      (members owner)[j]? := by
  obtain ⟨hi, rfl⟩ := List.getElem?_eq_some_iff.mp h
  have hsplit : owners.flatMap members = (owners.take i).flatMap members ++
      (members owners[i] ++ (owners.drop (i + 1)).flatMap members) := by
    conv_lhs => rw [← List.take_append_drop i owners, List.flatMap_append,
      List.drop_eq_getElem_cons hi, List.flatMap_cons]
  rw [hsplit, List.getElem?_append_right (Nat.le_add_right _ _), Nat.add_sub_cancel_left,
    List.getElem?_append_left hj]

/-- A member of an owner is the one with its number among those of all. -/
lemma exists_memberStart_add {α β : Type} (members : α → List β) {owners : List α} {i j : ℕ}
    {owner : α} {a : β} (h : owners[i]? = some owner) (ha : (members owner)[j]? = some a) :
    ∃ k, memberStart members owners i + j = k + 1 ∧ (owners.flatMap members)[k]? = some a := by
  have hj := (List.getElem?_eq_some_iff.mp ha).1
  refine ⟨_, ?_, (getElem?_flatMap_of_getElem? h hj).trans ha⟩
  rw [memberStart]
  omega

/-- The members of the next owner start behind those of an owner. -/
lemma memberStart_succ {α β : Type} (members : α → List β) {owners : List α} {i : ℕ} {owner : α}
    (h : owners[i]? = some owner) :
    memberStart members owners (i + 1) =
      memberStart members owners i + (members owner).length := by
  obtain ⟨hi, rfl⟩ := List.getElem?_eq_some_iff.mp h
  rw [memberStart, memberStart, List.take_succ_eq_append_getElem hi, List.flatMap_append,
    List.length_append, List.flatMap_singleton, Nat.add_assoc]

/-- Behind the last owner, all members have been passed. -/
lemma memberStart_length {α β : Type} (members : α → List β) (owners : List α) :
    memberStart members owners owners.length = (owners.flatMap members).length + 1 := by
  rw [memberStart, List.take_length, Nat.add_comm]

/-- No members start behind the place that follows all of them. -/
lemma memberStart_le {α β : Type} (members : α → List β) (owners : List α) (i : ℕ) :
    memberStart members owners i ≤ (owners.flatMap members).length + 1 := by
  have hsplit : owners.flatMap members =
      (owners.take i).flatMap members ++ (owners.drop i).flatMap members := by
    rw [← List.flatMap_append, List.take_append_drop]
  rw [memberStart, hsplit, List.length_append]
  omega

namespace ModuleDecl

variable (M : ModuleDecl)

/-- The fields of all types, one type after the other. -/
def fields : List FieldDecl :=
  M.types.flatMap TypeDecl.fields

/-- The methods of all types, one type after the other. -/
def methods : List MethodDecl :=
  M.types.flatMap TypeDecl.methods

/-- The parameters of all methods, one method after the other, with their positions. -/
def params : List (ParamDecl × ℕ) :=
  M.methods.flatMap fun m => m.params.zipIdx 1

/-- The row with which the fields of a type start. -/
def fieldStart (i : ℕ) : ℕ :=
  memberStart TypeDecl.fields M.types i

/-- The row with which the methods of a type start. -/
def methodStart (i : ℕ) : ℕ :=
  memberStart TypeDecl.methods M.types i

/-- The row with which the parameters of a method start. -/
def paramStart (i : ℕ) : ℕ :=
  memberStart (fun m : MethodDecl => m.params.zipIdx 1) M.methods i

/-- The descriptor of the type at a position. -/
def typeInfo (t : TypeDecl) (i : ℕ) : TypeInfo where
  name := t.name
  fullName := t.fullName
  token := TableId.typeDef.tokenOfRow (i + 1)
  kind := .referenceType
  methods := (t.methods.zipIdx (M.methodStart i)).filterMap fun (m, row) => m.info? M.types row
  fields := (t.fields.zipIdx (M.fieldStart i)).map fun (f, row) => f.info M.types row
  isGenerated := false

/-- The descriptors of all types. -/
def infos : List TypeInfo :=
  M.types.mapIdx fun i t => M.typeInfo t i

end ModuleDecl

/-! ## Signatures -/

/-- The signature of the type of a member. -/
def MemberType.signature : MemberType → TypeSig
  | .primitive p => .primitive p
  | .vector element => .vector element.signature
  | .pointer target => .pointer target.signature
  | .classType index => .classType (TableId.typeDef.token (index + 1))
  | .valueType index => .valueType (TableId.typeDef.token (index + 1))

/-- The signature of a method. It is called on a value unless it belongs to the type. -/
def MethodDecl.signature (m : MethodDecl) : MethodSig where
  hasThis := !m.flags.toNat.testBit staticBit
  explicitThis := false
  vararg := false
  genericCount := 0
  returns := ⟨false, m.returns.signature⟩
  params := m.params.map fun p => ⟨false, p.type.signature⟩

/-- The signature of the type of a member can be stored. -/
lemma MemberType.storable_signature (t : MemberType) : t.signature.Storable := by
  have hnames : ∀ index, (TableId.typeDef.token (index + 1)).NamesType := by
    intro index
    left
    rw [TableId.token, Token.table_ofParts]
    decide
  induction t with
  | primitive p => exact .primitive p
  | vector element ih => exact .vector ih
  | pointer target ih => exact .pointer ih
  | classType index => exact .classType (hnames index)
  | valueType index => exact .valueType (hnames index)

/-- The type of a member is no reference to a variable. -/
lemma MemberType.not_isByRef_signature (t : MemberType) : ¬t.signature.IsByRef := by
  rintro ⟨target, h⟩
  cases t <;> cases h

/-- The signature of a method can be stored, unless it has too many parameters. -/
lemma MethodDecl.storable_signature {d : MethodDecl} (h : d.params.length < 2 ^ 29) :
    d.signature.Storable := by
  refine ⟨⟨Nat.two_pow_pos 29, ?_, fun _ => d.returns.not_isByRef_signature, ?_⟩,
    d.returns.storable_signature, ?_⟩
  · rw [signature, List.length_map]
    exact h
  · intro param hparam _
    obtain ⟨p, -, rfl⟩ := List.mem_map.mp hparam
    exact p.type.not_isByRef_signature
  · intro param hparam
    obtain ⟨p, -, rfl⟩ := List.mem_map.mp hparam
    exact p.type.storable_signature

/-! ## Declarations that fit the format -/

/-- Whether the types that a type mentions are types of the module that are not shown by a
keyword. -/
def MemberType.isNamed (types : List TypeDecl) : MemberType → Bool
  | .primitive _ => true
  | .vector element => element.isNamed types
  | .pointer target => target.isNamed types
  | .classType index => types[index]?.any fun t => !hasKeyword t.typeNamespace t.name
  | .valueType index => types[index]?.any fun t => !hasKeyword t.typeNamespace t.name

/-- A type of a member that can be stored and shown. -/
structure MemberType.Fits (types : List TypeDecl) (t : MemberType) : Prop where
  named : t.isNamed types = true
  nesting : t.signature.nesting < nestingLimit

instance (types : List TypeDecl) (t : MemberType) : Decidable (t.Fits types) :=
  decidable_of_iff (t.isNamed types = true ∧ t.signature.nesting < nestingLimit)
    ⟨fun h => ⟨h.1, h.2⟩, fun h => ⟨h.named, h.nesting⟩⟩

/-- A name without the character that ends it in a heap. -/
def IsStorableName (name : String) : Prop :=
  '\x00' ∉ name.toList

instance (name : String) : Decidable (IsStorableName name) :=
  inferInstanceAs (Decidable (_ ∉ _))

/-- A parameter that can be stored. -/
structure ParamDecl.Fits (types : List TypeDecl) (p : ParamDecl) : Prop where
  name : IsStorableName p.name
  type : p.type.Fits types

instance (types : List TypeDecl) (p : ParamDecl) : Decidable (p.Fits types) :=
  decidable_of_iff (IsStorableName p.name ∧ p.type.Fits types)
    ⟨fun h => ⟨h.1, h.2⟩, fun h => ⟨h.name, h.type⟩⟩

/-- A field that can be stored. -/
structure FieldDecl.Fits (types : List TypeDecl) (f : FieldDecl) : Prop where
  name : IsStorableName f.name
  type : f.type.Fits types

instance (types : List TypeDecl) (f : FieldDecl) : Decidable (f.Fits types) :=
  decidable_of_iff (IsStorableName f.name ∧ f.type.Fits types)
    ⟨fun h => ⟨h.1, h.2⟩, fun h => ⟨h.name, h.type⟩⟩

/-- A method that can be stored: its parameters are counted with two bytes. -/
structure MethodDecl.Fits (types : List TypeDecl) (m : MethodDecl) : Prop where
  name : IsStorableName m.name
  returns : m.returns.Fits types
  params : ∀ p ∈ m.params, p.Fits types
  paramCount : m.params.length < 2 ^ 16

instance (types : List TypeDecl) (m : MethodDecl) : Decidable (m.Fits types) :=
  decidable_of_iff (IsStorableName m.name ∧ m.returns.Fits types ∧
      (∀ p ∈ m.params, p.Fits types) ∧ m.params.length < 2 ^ 16)
    ⟨fun ⟨hname, hreturns, hparams, hcount⟩ => ⟨hname, hreturns, hparams, hcount⟩,
      fun h => ⟨h.name, h.returns, h.params, h.paramCount⟩⟩

/-- A type that can be stored and is listed. It is not an interface. -/
structure TypeDecl.Fits (types : List TypeDecl) (t : TypeDecl) : Prop where
  name : IsStorableName t.name
  typeNamespace : IsStorableName t.typeNamespace
  listed : t.name ≠ moduleTypeName
  noInterface : t.flags.toNat.testBit interfaceBit = false
  fields : ∀ f ∈ t.fields, f.Fits types
  methods : ∀ m ∈ t.methods, m.Fits types

instance (types : List TypeDecl) (t : TypeDecl) : Decidable (t.Fits types) :=
  decidable_of_iff (IsStorableName t.name ∧ IsStorableName t.typeNamespace ∧
      t.name ≠ moduleTypeName ∧ t.flags.toNat.testBit interfaceBit = false ∧
      (∀ f ∈ t.fields, f.Fits types) ∧ ∀ m ∈ t.methods, m.Fits types)
    ⟨fun ⟨hname, hnamespace, hlisted, hbit, hfields, hmethods⟩ =>
        ⟨hname, hnamespace, hlisted, hbit, hfields, hmethods⟩,
      fun h => ⟨h.name, h.typeNamespace, h.listed, h.noInterface, h.fields, h.methods⟩⟩

/-- The width of numbers of rows that are written with `bits` bits, if they fit in them. -/
def indexWidth (bits rows : ℕ) : ℕ :=
  if rows < 2 ^ bits then 2 else 4

/-- A module that can be stored: tokens can name its rows, and the places where runs of members
start fit the columns for them. -/
structure ModuleDecl.Fits (M : ModuleDecl) : Prop where
  name : IsStorableName M.name
  types : ∀ t ∈ M.types, t.Fits M.types
  typeCount : M.types.length < 2 ^ 24
  fieldCount : M.fields.length < 2 ^ 24
  methodCount : M.methods.length < 2 ^ 24
  paramCount : M.params.length < 2 ^ 24
  fieldStart : ∀ i < M.types.length, M.fieldStart i < 2 ^ (8 * indexWidth 16 M.fields.length)
  methodStart : ∀ i < M.types.length, M.methodStart i < 2 ^ (8 * indexWidth 16 M.methods.length)
  paramStart : ∀ i < M.methods.length, M.paramStart i < 2 ^ (8 * indexWidth 16 M.params.length)

section Fits

variable {M : ModuleDecl}

/-- A field of a type is one of the module. -/
lemma ModuleDecl.Fits.field (h : M.Fits) {f : FieldDecl} (hf : f ∈ M.fields) : f.Fits M.types := by
  obtain ⟨t, ht, hf⟩ := List.mem_flatMap.mp hf
  exact (h.types t ht).fields f hf

/-- A method of a type is one of the module. -/
lemma ModuleDecl.Fits.method (h : M.Fits) {m : MethodDecl} (hm : m ∈ M.methods) :
    m.Fits M.types := by
  obtain ⟨t, ht, hm⟩ := List.mem_flatMap.mp hm
  exact (h.types t ht).methods m hm

/-- A parameter of a method is one of the module, with a position of two bytes. -/
lemma ModuleDecl.Fits.param (h : M.Fits) {p : ParamDecl × ℕ} (hp : p ∈ M.params) :
    p.1.Fits M.types ∧ p.2 < 2 ^ 16 := by
  obtain ⟨m, hm, hp⟩ := List.mem_flatMap.mp hp
  have hfits := h.method hm
  obtain ⟨hle, hlt, hget⟩ := List.mem_zipIdx hp
  have hcount := hfits.paramCount
  refine ⟨hfits.params p.1 ?_, by omega⟩
  rw [hget]
  exact List.getElem_mem _

/-- Numbers below a bound have their greatest one below it. -/
lemma foldr_max_lt {bound : ℕ} {numbers : List ℕ} (hpos : 0 < bound)
    (h : ∀ n ∈ numbers, n < bound) : numbers.foldr max 0 < bound := by
  induction numbers with
  | nil => exact hpos
  | cons n numbers ih =>
    rw [List.forall_mem_cons] at h
    exact Nat.max_lt.mpr ⟨h.1, ih h.2⟩

/-- The types in a method that fits are not nested too deep. -/
lemma MethodDecl.Fits.nesting_signature {types : List TypeDecl} {d : MethodDecl}
    (h : d.Fits types) : d.signature.nesting < nestingLimit := by
  refine Nat.max_lt.mpr ⟨h.returns.nesting, foldr_max_lt (by decide) fun n hn => ?_⟩
  obtain ⟨param, hparam, rfl⟩ := List.mem_map.mp hn
  obtain ⟨p, hp, rfl⟩ := List.mem_map.mp hparam
  exact (h.params p hp).type.nesting

end Fits

/-! ## Rows -/

/-- Places of names and signatures in heaps, by the positions of what they belong to. -/
structure Placement where
  /-- The name of the module. -/
  moduleName : ℕ
  /-- The names of types. -/
  typeName : ℕ → ℕ
  /-- The namespaces of types. -/
  typeNamespace : ℕ → ℕ
  /-- The names of fields. -/
  fieldName : ℕ → ℕ
  /-- The signatures of fields. -/
  fieldSignature : ℕ → ℕ
  /-- The names of methods. -/
  methodName : ℕ → ℕ
  /-- The signatures of methods. -/
  methodSignature : ℕ → ℕ
  /-- The names of parameters. -/
  paramName : ℕ → ℕ

namespace Placement

variable (places : Placement)

/-- The row of the module. -/
def moduleRow : ModuleRow :=
  ⟨1, 0, places.moduleName, 0⟩

/-- The row of the type at a position among those of a module. It has no base. -/
def typeDefRow (M : ModuleDecl) (t : TypeDecl) (i : ℕ) : TypeDefRow where
  rid := i + 1
  flags := t.flags.toNat
  typeName := places.typeName i
  typeNamespace := places.typeNamespace i
  baseType := ⟨.typeDef, 0⟩
  fieldList := M.fieldStart i
  methodList := M.methodStart i

/-- The row of the field at a position. -/
def fieldRow (f : FieldDecl) (i : ℕ) : FieldRow :=
  ⟨i + 1, f.flags.toNat, places.fieldName i, places.fieldSignature i⟩

/-- The row of the method at a position among those of a module. It has no body. -/
def methodRow (M : ModuleDecl) (d : MethodDecl) (i : ℕ) : MethodDefRow :=
  ⟨i + 1, 0, 0, d.flags.toNat, places.methodName i, places.methodSignature i, M.paramStart i⟩

/-- The row of the parameter at a position. -/
def paramRow (p : ParamDecl × ℕ) (i : ℕ) : ParamRow :=
  ⟨i + 1, p.1.flags.toNat, p.2, places.paramName i⟩

end Placement

end TypeInventory
