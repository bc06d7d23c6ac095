import TypeInventory.Token

set_option relaxedAutoImplicit false
set_option autoImplicit false

/-!
# Signatures

The types of members as they are stored: trees whose leaves are built-in types, tokens of other
types, and positions of generic parameters.

## Main definitions

* `PrimitiveType` — the built-in types; `PrimitiveType.code` and `PrimitiveType.ofCode?`, the
  bytes that stand for them; `PrimitiveType.runtimeName`.
* `TypeSig`, `ParamSig`, `MethodSig` — signatures of types, parameters and methods.

## Main results

* `PrimitiveType.ofCode?_code` — every built-in type is found by its byte.
-/

namespace TypeInventory

/-! ## Built-in types -/

/-- The built-in types that need no further description. -/
inductive PrimitiveType where
  | void
  | boolean
  | char
  | i1
  | u1
  | i2
  | u2
  | i4
  | u4
  | i8
  | u8
  | r4
  | r8
  | string
  | typedByRef
  | nativeInt
  | nativeUInt
  | object
deriving DecidableEq, Repr, Inhabited

namespace PrimitiveType

/-- The byte that stands for a built-in type. -/
def code : PrimitiveType → UInt8
  | void => 0x01
  | boolean => 0x02
  | char => 0x03
  | i1 => 0x04
  | u1 => 0x05
  | i2 => 0x06
  | u2 => 0x07
  | i4 => 0x08
  | u4 => 0x09
  | i8 => 0x0A
  | u8 => 0x0B
  | r4 => 0x0C
  | r8 => 0x0D
  | string => 0x0E
  | typedByRef => 0x16
  | nativeInt => 0x18
  | nativeUInt => 0x19
  | object => 0x1C

/-- The built-in type that a byte stands for. -/
def ofCode? (byte : UInt8) : Option PrimitiveType :=
  match byte.toNat with
  | 0x01 => some void
  | 0x02 => some boolean
  | 0x03 => some char
  | 0x04 => some i1
  | 0x05 => some u1
  | 0x06 => some i2
  | 0x07 => some u2
  | 0x08 => some i4
  | 0x09 => some u4
  | 0x0A => some i8
  | 0x0B => some u8
  | 0x0C => some r4
  | 0x0D => some r8
  | 0x0E => some string
  | 0x16 => some typedByRef
  | 0x18 => some nativeInt
  | 0x19 => some nativeUInt
  | 0x1C => some object
  | _ => none

/-- The name of a built-in type in the runtime. -/
def runtimeName : PrimitiveType → String
  | void => "Void"
  | boolean => "Boolean"
  | char => "Char"
  | i1 => "SByte"
  | u1 => "Byte"
  | i2 => "Int16"
  | u2 => "UInt16"
  | i4 => "Int32"
  | u4 => "UInt32"
  | i8 => "Int64"
  | u8 => "UInt64"
  | r4 => "Single"
  | r8 => "Double"
  | string => "String"
  | typedByRef => "TypedReference"
  | nativeInt => "IntPtr"
  | nativeUInt => "UIntPtr"
  | object => "Object"

theorem ofCode?_code (p : PrimitiveType) : ofCode? p.code = some p := by
  cases p <;> rfl

end PrimitiveType

/-! ## Signatures -/

/-- A parameter or a return value, with its type in the form `α`. -/
structure ParamShape (α : Type) where
  /-- Whether it is passed by reference. -/
  byRef : Bool
  /-- Its type, without the reference. -/
  type : α
deriving DecidableEq, Repr, Inhabited

/-- A method, with types in the form `α`. -/
structure MethodShape (α : Type) where
  /-- Whether it is called on a value. -/
  hasThis : Bool
  /-- Whether that value is the first of the parameters. -/
  explicitThis : Bool
  /-- Whether it takes further arguments than its parameters. -/
  vararg : Bool
  /-- The number of its generic parameters. -/
  genericCount : Nat
  /-- What it returns. -/
  returns : ParamShape α
  /-- Its parameters. -/
  params : List (ParamShape α)
deriving DecidableEq, Repr, Inhabited

/-- The signature of a type. -/
inductive TypeSig where
  /-- A built-in type. -/
  | primitive (type : PrimitiveType)
  /-- A pointer. -/
  | pointer (target : TypeSig)
  /-- A reference to a variable. -/
  | byRef (target : TypeSig)
  /-- A value type, by its token. -/
  | valueType (token : Token)
  /-- A reference type, by its token. -/
  | classType (token : Token)
  /-- A generic parameter of the enclosing type, by its position. -/
  | typeParameter (index : Nat)
  /-- A generic parameter of the enclosing method, by its position. -/
  | methodParameter (index : Nat)
  /-- An array of a given rank. Its sizes and bounds are not kept. -/
  | array (element : TypeSig) (rank : Nat)
  /-- An array of one dimension that starts at zero. -/
  | vector (element : TypeSig)
  /-- An instantiation of a generic type. -/
  | instantiation (base : TypeSig) (args : List TypeSig)
  /-- A pointer to a method. -/
  | functionPointer (method : MethodShape TypeSig)
  /-- A type whose value must not be moved. -/
  | pinned (target : TypeSig)
deriving Repr, Inhabited

/-- The signature of a parameter or a return value. -/
abbrev ParamSig : Type :=
  ParamShape TypeSig

/-- The signature of a method. -/
abbrev MethodSig : Type :=
  MethodShape TypeSig

end TypeInventory
