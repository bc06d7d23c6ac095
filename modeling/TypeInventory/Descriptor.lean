import TypeInventory.Token

set_option relaxedAutoImplicit false
set_option autoImplicit false

/-!
# Descriptors

What a module says about its types and their members, in a form that no longer refers to the
tables of the module. Selecting, rendering and reporting work on descriptors alone.

## Main definitions

* `TypeName` — a type as it appears in the signature of a member.
* `Access`, `Inheritance`, `TypeKind` — accessibility of a member, inheritance of a method, and
  kind of a type.
* `ParameterInfo`, `MethodInfo`, `FieldInfo`, `TypeInfo` — the descriptors.
-/

namespace TypeInventory

/-- A type as it appears in the signature of a member. -/
inductive TypeName where
  /-- A built-in type, by its keyword or by its name in the runtime. -/
  | primitive (name : String)
  /-- An array of any rank. -/
  | array (element : TypeName)
  /-- A reference to a variable of the given type. -/
  | byRef (element : TypeName)
  /-- A value type that may be absent. -/
  | nullable (element : TypeName)
  /-- An instantiation of the generic type `base`, whose name may end in a backtick and the
  number of its parameters. -/
  | generic (base : String) (args : List TypeName)
  /-- A nested type that is not public, with the type that encloses it. -/
  | nested (enclosing : TypeName) (name : String)
  /-- Any other type, by its simple name. -/
  | plain (name : String)
deriving Repr, Inhabited

/-- Whether a type is a reference to a variable. -/
def TypeName.isByRef : TypeName → Bool
  | .byRef _ => true
  | _ => false

/-! ## Attributes of members -/

/-- Accessibility of a member. -/
inductive Access where
  /-- Accessible to all. -/
  | all
  /-- Accessible to the declaring type. -/
  | declaringType
  /-- Accessible to types that derive from the declaring one. -/
  | family
  /-- Accessible to derived types and to the whole assembly. -/
  | familyOrAssembly
  /-- Accessible to the whole assembly. -/
  | assembly
  /-- Shown without a keyword. -/
  | unmarked
deriving DecidableEq, Repr, Inhabited

/-- The accessibility that the low three bits of a member's attributes stand for. -/
def Access.ofAttributes (attributes : Nat) : Access :=
  match attributes % 8 with
  | 6 => .all
  | 1 => .declaringType
  | 4 => .family
  | 5 => .familyOrAssembly
  | 3 => .assembly
  | _ => .unmarked

/-- The keyword of an accessibility. -/
def Access.keyword? : Access → Option String
  | .all => some "public"
  | .declaringType => some "private"
  | .family => some "protected"
  | .familyOrAssembly => some "protected internal"
  | .assembly => some "internal"
  | .unmarked => none

/-- How a method takes part in inheritance. -/
inductive Inheritance where
  /-- Not at all, as far as is shown. -/
  | unmarked
  /-- It may be overridden. -/
  | overridable
  /-- It overrides for the last time. -/
  | overriding
  /-- It has no body of its own. -/
  | bodiless
deriving DecidableEq, Repr, Inhabited

/-- An abstract method is bodiless; of the others, a virtual one is overriding when it is final
and overridable when it is not. -/
def Inheritance.ofFlags (isVirtual isFinal isAbstract : Bool) : Inheritance :=
  if isAbstract then .bodiless
  else if isVirtual && isFinal then .overriding
  else if isVirtual then .overridable
  else .unmarked

/-- The keyword of an inheritance. -/
def Inheritance.keyword? : Inheritance → Option String
  | .unmarked => none
  | .overridable => some "virtual"
  | .overriding => some "override"
  | .bodiless => some "abstract"

/-- Kind of a type. -/
inductive TypeKind where
  /-- A reference type. -/
  | referenceType
  /-- An interface. -/
  | interfaceType
  /-- An enumeration. -/
  | enumeration
  /-- A value type. -/
  | valueType
deriving DecidableEq, Repr, Inhabited

/-! ## Descriptors -/

/-- A parameter of a method. -/
structure ParameterInfo where
  /-- Its name; empty when the module gives none. -/
  name : String := ""
  /-- Its type, `TypeName.byRef` included. -/
  type : TypeName := .plain ""
  /-- Marked as assigned by the method. -/
  isOut : Bool := false
  /-- Passed by reference. -/
  isRef : Bool := false
  /-- Marked as optional. -/
  isOptional : Bool := false
deriving Repr, Inhabited

/-- A method of a type. -/
structure MethodInfo where
  /-- Its name. -/
  name : String := ""
  /-- Its token. -/
  token : Token := ⟨0⟩
  /-- What it returns. -/
  returnType : TypeName := .plain ""
  /-- Its parameters in the order of declaration. -/
  parameters : List ParameterInfo := []
  /-- Its accessibility. -/
  access : Access := .all
  /-- Whether it belongs to the type and not to its values. -/
  isStatic : Bool := false
  /-- Its inheritance. -/
  inheritance : Inheritance := .unmarked
  /-- The names of its generic parameters. -/
  genericParameters : List String := []
  /-- Whether it is marked as made by a compiler. -/
  isGenerated : Bool := false
deriving Repr, Inhabited

/-- A field of a type. -/
structure FieldInfo where
  /-- Its name. -/
  name : String := ""
  /-- Its token. -/
  token : Token := ⟨0⟩
  /-- Its type. -/
  type : TypeName := .plain ""
  /-- Its accessibility. -/
  access : Access := .all
  /-- Whether it belongs to the type and not to its values. -/
  isStatic : Bool := false
  /-- Whether only constructors assign it. -/
  isReadOnly : Bool := false
  /-- Whether its value is fixed at compile time. -/
  isConstant : Bool := false
  /-- Whether it is marked as made by a compiler. -/
  isGenerated : Bool := false
deriving Repr, Inhabited

/-- A type with the members it declares. -/
structure TypeInfo where
  /-- Its simple name. -/
  name : String := ""
  /-- Its name with namespace and enclosing types. -/
  fullName : String := ""
  /-- Its token. -/
  token : Token := ⟨0⟩
  /-- Its kind. -/
  kind : TypeKind := .referenceType
  /-- Its methods in the order of declaration. -/
  methods : List MethodInfo := []
  /-- Its fields in the order of declaration. -/
  fields : List FieldInfo := []
  /-- Whether it is marked as made by a compiler. -/
  isGenerated : Bool := false
deriving Repr, Inhabited

/-- Whether a type declares neither methods nor fields. -/
def TypeInfo.hasNoMembers (t : TypeInfo) : Bool :=
  t.methods.isEmpty && t.fields.isEmpty

end TypeInventory
