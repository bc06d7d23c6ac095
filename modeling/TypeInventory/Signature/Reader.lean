import TypeInventory.Metadata.CodedIndex
import TypeInventory.Signature

set_option relaxedAutoImplicit false
set_option autoImplicit false

/-!
# Reading signatures

A signature is stored as a blob. Each type starts with a byte that says what it is; what the type
is made of follows. Before types and parameters there may be modifiers, which are passed over.

Types may be nested, but only so deep: a reader of signatures counts how many types it is inside
of and stops with `Fault.nesting` at `nestingLimit`. A type that is refused for this reason stays
counted; all others are no longer counted when they end, well or badly.

## Main definitions

* `SignatureCursor`, `SignatureReader` — a cursor that counts nesting, and what moves it.
* `SignatureReader.type`, `SignatureReader.field`, `SignatureReader.method` — the signature of a
  type, a field and a method.
* `TypeSig.ofBlob`, `TypeSig.ofFieldBlob`, `MethodSig.ofBlob` — the signature in a blob.
-/

namespace TypeInventory

/-! ## Element types -/

/-- What a byte at the start of a type that is not built in announces. -/
inductive ElementKind where
  | pointer
  | byRef
  | valueType
  | classType
  | typeParameter
  | array
  | instantiation
  | functionPointer
  | vector
  | methodParameter
  | pinned
deriving DecidableEq, Repr

namespace ElementKind

/-- The byte that announces a kind. -/
def code : ElementKind → UInt8
  | pointer => 0x0F
  | byRef => 0x10
  | valueType => 0x11
  | classType => 0x12
  | typeParameter => 0x13
  | array => 0x14
  | instantiation => 0x15
  | functionPointer => 0x1B
  | vector => 0x1D
  | methodParameter => 0x1E
  | pinned => 0x45

/-- The kind that a byte announces. -/
def ofCode? (byte : UInt8) : Option ElementKind :=
  match byte.toNat with
  | 0x0F => some pointer
  | 0x10 => some byRef
  | 0x11 => some valueType
  | 0x12 => some classType
  | 0x13 => some typeParameter
  | 0x14 => some array
  | 0x15 => some instantiation
  | 0x1B => some functionPointer
  | 0x1D => some vector
  | 0x1E => some methodParameter
  | 0x45 => some pinned
  | _ => none

theorem ofCode?_code (k : ElementKind) : ofCode? k.code = some k := by
  cases k <;> rfl

end ElementKind

/-- The byte before a required modifier. -/
def requiredModifier : UInt8 := 0x1F

/-- The byte before an optional modifier. -/
def optionalModifier : UInt8 := 0x20

/-- The byte between the parameters of a method and the types of further arguments. -/
def sentinel : UInt8 := 0x41

/-- The byte at the start of the signature of a field. -/
def fieldMark : UInt8 := 0x06

/-! ## A cursor that counts nesting -/

/-- A cursor in a signature, and in how many types it is. -/
structure SignatureCursor where
  /-- The cursor in the blob. -/
  cursor : Cursor
  /-- The number of types that have been entered and not left. -/
  depth : Nat

/-- The cursor in front of the signature in a blob. -/
def SignatureCursor.ofBlob (blob : ByteArray) : SignatureCursor :=
  ⟨Cursor.ofBytes blob, 0⟩

/-- A computation that moves a cursor in a signature. -/
abbrev SignatureReader (α : Type) : Type :=
  EStateM Fault SignatureCursor α

namespace SignatureReader

/-- Lets a reader of bytes move the cursor. -/
def ofReader {α : Type} (r : Reader α) : SignatureReader α := fun s =>
  match r.run s.cursor with
  | .ok a c => .ok a { s with cursor := c }
  | .error e c => .error e { s with cursor := c }

instance : MonadLift Reader SignatureReader :=
  ⟨ofReader⟩

/-- Runs `body` one level deeper, and returns to the level before whatever comes of it. -/
def nested {α : Type} (body : SignatureReader α) : SignatureReader α := fun s =>
  match body.run { s with depth := s.depth + 1 } with
  | .ok a s' => .ok a { s' with depth := s'.depth - 1 }
  | .error e s' => .error e { s' with depth := s'.depth - 1 }

/-- Refuses to go one level deeper. The level stays counted. -/
def refuse {α : Type} : SignatureReader α := fun s =>
  .error .nesting { s with depth := s.depth + 1 }

/-! ## Types -/

/-- Passes over at most `n` modifiers, each a byte and a token. -/
def modifiersUpTo : Nat → Reader Unit
  | 0 => pure ()
  | n + 1 => do
    let c ← get
    if c.hasMore then
      let byte ← Reader.peek
      if byte = requiredModifier ∨ byte = optionalModifier then
        Reader.skip 1
        let _ ← Reader.compressedToken
        modifiersUpTo n

/-- Passes over all modifiers at the cursor. There are at most as many as bytes. -/
def modifiers : Reader Unit := do
  let c ← get
  modifiersUpTo c.remaining

/-- A parameter: modifiers, perhaps a mark for a reference, and a type that is read by `type`. -/
def param (type : SignatureReader TypeSig) : SignatureReader ParamSig := do
  modifiers
  let byte ← Reader.peek
  if byte = ElementKind.byRef.code then
    Reader.skip 1
    return ⟨true, ← type⟩
  else
    return ⟨false, ← type⟩

/-- A further parameter, unless the mark before further arguments is next. -/
def paramOrEnd (type : SignatureReader TypeSig) : SignatureReader (Option ParamSig) := do
  let byte ← Reader.peek
  if byte = sentinel then
    return none
  else
    return some (← param type)

/-- A method: its calling convention, the number of its generic parameters where the convention
announces one, the number of parameters, the return value, and the parameters up to the mark
before further arguments. -/
def methodOf (type : SignatureReader TypeSig) : SignatureReader MethodSig := do
  let convention ← Reader.byte
  let bits := convention.toNat
  if 5 < bits % 16 then
    throw (.malformed (.callingConvention convention))
  let genericCount ← if bits.testBit 4 then ofReader Reader.compressed else pure 0
  let count ← Reader.compressed
  let returns ← param type
  let params ← collectWhile (paramOrEnd type) count
  return { hasThis := bits.testBit 5
           explicitThis := bits.testBit 6
           vararg := bits % 16 == 5
           genericCount, returns, params }

/-- The part of an array behind its element type: the rank, and sizes and lower bounds, each after
their number. The rank alone is kept. -/
def arrayShape : Reader Nat := do
  let rank ← Reader.compressed
  let sizeCount ← Reader.compressed
  let _ ← collect Reader.compressed sizeCount
  let boundCount ← Reader.compressed
  let _ ← collect Reader.compressed boundCount
  return rank

/-- A type of a given kind, behind the byte that announced it. Types inside it are read by
`type`. -/
def ofKind (type : SignatureReader TypeSig) : ElementKind → SignatureReader TypeSig
  | .pointer => return .pointer (← type)
  | .byRef => return .byRef (← type)
  | .valueType => return .valueType (← Reader.compressedToken)
  | .classType => return .classType (← Reader.compressedToken)
  | .typeParameter => return .typeParameter (← Reader.compressed)
  | .methodParameter => return .methodParameter (← Reader.compressed)
  | .array => do
    let element ← type
    return .array element (← arrayShape)
  | .vector => return .vector (← type)
  | .instantiation => do
    let byte ← Reader.peek
    if byte ≠ ElementKind.classType.code ∧ byte ≠ ElementKind.valueType.code then
      throw (.malformed (.instantiationHead byte))
    let base ← type
    let count ← Reader.compressed
    return .instantiation base (← collect type count)
  | .functionPointer => return .functionPointer (← methodOf type)
  | .pinned => return .pinned (← type)

/-- A type behind its modifiers. Types inside it are read by `type`. -/
def typeOf (type : SignatureReader TypeSig) : SignatureReader TypeSig := do
  modifiers
  let byte ← Reader.byte
  match PrimitiveType.ofCode? byte with
  | some p => return .primitive p
  | none =>
    match ElementKind.ofCode? byte with
    | some kind => ofKind type kind
    | none => throw (.malformed (.elementType byte))

/-- A type that may have `levels` levels, itself included. -/
def typeWithin : Nat → SignatureReader TypeSig
  | 0 => refuse
  | levels + 1 => nested (typeOf (typeWithin levels))

/-- How many further types may be entered inside of `depth` others. -/
def levelsAt (depth : Nat) : Nat :=
  nestingLimit - 1 - depth

/-- The signature of a type. -/
def type : SignatureReader TypeSig := do
  let s ← get
  typeWithin (levelsAt s.depth)

/-- The signature of a method. -/
def method : SignatureReader MethodSig :=
  methodOf type

/-- The signature of a field: a mark and a type. -/
def field : SignatureReader TypeSig := do
  let byte ← Reader.byte
  if byte ≠ fieldMark then
    throw (.malformed (.fieldHead byte))
  type

/-- Runs a reader from the start of a blob and gives the result alone. -/
def runOn {α : Type} (r : SignatureReader α) (blob : ByteArray) : Except Fault α :=
  match r.run (.ofBlob blob) with
  | .ok a _ => .ok a
  | .error e _ => .error e

end SignatureReader

/-- The type in a blob of a constructed type. -/
def TypeSig.ofBlob (blob : ByteArray) : Except Fault TypeSig :=
  SignatureReader.type.runOn blob

/-- The type in a blob of a field. -/
def TypeSig.ofFieldBlob (blob : ByteArray) : Except Fault TypeSig :=
  SignatureReader.field.runOn blob

/-- The method in a blob of a method. -/
def MethodSig.ofBlob (blob : ByteArray) : Except Fault MethodSig :=
  SignatureReader.method.runOn blob

end TypeInventory
