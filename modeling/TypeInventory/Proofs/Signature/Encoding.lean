import TypeInventory.Proofs.Bytes.Written
import TypeInventory.Signature.Reader

set_option relaxedAutoImplicit false
set_option autoImplicit false

/-!
# How signatures are written

The format of signatures, read as a relation between signatures and bytes. One signature has many
written forms: any modifiers may stand before types and parameters, and an array has sizes and lower
bounds that its signature does not keep. The relation leaves these choices open. Nothing in it says
how signatures are read.

Shapes of parameters and methods are written around the types in them, so that their forms are
stated for any way of writing these types.

## Main definitions

* `Modifier`, `modifierBytes` — modifiers and their bytes.
* `Modified`, `ParamShape.Written`, `MethodShape.Head`, `MethodShape.Written` — the written forms
  of what stands behind modifiers, of a parameter and of a method.
* `TypeSig.Bare`, `TypeSig.Written` — the written forms of a type, without and with modifiers.
* `TypeSig.nesting`, `MethodSig.nesting` — how many types lie around the innermost one, itself
  included.
* `TypeSig.Storable`, `MethodSig.Storable` — the signatures whose parts fit the format.

## Main results

* `TypeSig.Storable.exists_bare`, `MethodSig.Storable.exists_written` — what fits the format has a
  written form.
* `TypeSig.Bare.exists_cons` — a type without modifiers starts with its own byte.
-/

namespace TypeInventory

/-! ## Modifiers -/

/-- A modifier: whether it is required, and the token of a type. -/
structure Modifier where
  /-- Whether readers must know it. -/
  required : Bool
  /-- The type that it names. -/
  token : Token
  /-- The token is one that blobs can hold. -/
  namesType : token.NamesType

namespace Modifier

/-- The byte that a modifier starts with. -/
def mark (m : Modifier) : UInt8 :=
  if m.required then requiredModifier else optionalModifier

/-- The bytes of a modifier: its mark and its token. -/
def bytes (m : Modifier) : List UInt8 :=
  m.mark :: m.token.typeBytes

lemma mark_eq (m : Modifier) : m.mark = requiredModifier ∨ m.mark = optionalModifier := by
  unfold mark
  split_ifs
  · exact .inl rfl
  · exact .inr rfl

/-- No modifier starts with the mark before further arguments. -/
lemma mark_ne_sentinel (m : Modifier) : m.mark ≠ sentinel := by
  rcases m.mark_eq with h | h
  · rw [h]
    decide
  · rw [h]
    decide

end Modifier

/-- The bytes of modifiers in a row. -/
def modifierBytes (mods : List Modifier) : List UInt8 :=
  mods.flatMap Modifier.bytes

lemma modifierBytes_append (front back : List Modifier) :
    modifierBytes (front ++ back) = modifierBytes front ++ modifierBytes back :=
  List.flatMap_append

/-! ## Written forms -/

section Shapes

variable {α : Type}

/-- What stands behind any modifiers. -/
inductive Modified (written : α → List UInt8 → Prop) : α → List UInt8 → Prop
  | intro (mods : List Modifier) {a : α} {bytes : List UInt8} (h : written a bytes) :
    Modified written a (modifierBytes mods ++ bytes)

/-- A parameter: modifiers, the mark for a reference if it is one, and its type behind modifiers of
its own. -/
inductive ParamShape.Written (written : α → List UInt8 → Prop) :
    ParamShape α → List UInt8 → Prop
  | intro (mods : List Modifier) {p : ParamShape α} {bytes : List UInt8}
    (htype : Modified written p.type bytes) :
    ParamShape.Written written p
      (modifierBytes mods ++ ((if p.byRef then [ElementKind.byRef.code] else []) ++ bytes))

/-- The first byte of a method: its calling convention, and a flag each for generic parameters, a
value that it is called on, and that value as the first parameter. -/
def conventionByte (convention : ℕ) (isGeneric hasThis explicitThis : Bool) : UInt8 :=
  UInt8.ofNat
    (convention + 0x10 * isGeneric.toNat + 0x20 * hasThis.toNat + 0x40 * explicitThis.toNat)

/-- The parts of the first byte of a method. -/
lemma toNat_conventionByte {convention : ℕ} (h : convention ≤ 5)
    (isGeneric hasThis explicitThis : Bool) :
    (conventionByte convention isGeneric hasThis explicitThis).toNat % 16 = convention ∧
    (conventionByte convention isGeneric hasThis explicitThis).toNat.testBit 4 = isGeneric ∧
    (conventionByte convention isGeneric hasThis explicitThis).toNat.testBit 5 = hasThis ∧
    (conventionByte convention isGeneric hasThis explicitThis).toNat.testBit 6 = explicitThis := by
  have hall : ∀ convention < 6, ∀ isGeneric hasThis explicitThis : Bool,
      (conventionByte convention isGeneric hasThis explicitThis).toNat % 16 = convention ∧
      (conventionByte convention isGeneric hasThis explicitThis).toNat.testBit 4 = isGeneric ∧
      (conventionByte convention isGeneric hasThis explicitThis).toNat.testBit 5 = hasThis ∧
      (conventionByte convention isGeneric hasThis explicitThis).toNat.testBit 6
        = explicitThis := by
    decide
  exact hall convention (Nat.lt_succ_of_le h) isGeneric hasThis explicitThis

/-- The number of generic parameters, where it is announced. -/
def genericBytes (isGeneric : Bool) (count : ℕ) : List UInt8 :=
  if isGeneric then compressedBytes count else []

/-- A method up to its parameters, of which it announces `count`: its first byte, the number of
generic parameters if it is announced, the number of parameters and the return value. The calling
convention 5 stands for further arguments. -/
inductive MethodShape.Head (written : α → List UInt8 → Prop) :
    ℕ → MethodShape α → List UInt8 → Prop
  | intro {convention : ℕ} {isGeneric : Bool} (count : ℕ) {m : MethodShape α} {back : List UInt8}
    (hconvention : convention ≤ 5) (hvararg : m.vararg = (convention == 5))
    (hgeneric : isGeneric = false → m.genericCount = 0)
    (hreturns : ParamShape.Written written m.returns back) :
    MethodShape.Head written count m
      (conventionByte convention isGeneric m.hasThis m.explicitThis ::
        (genericBytes isGeneric m.genericCount ++ (compressedBytes count ++ back)))

/-- A method: what stands before its parameters, and the parameters. -/
inductive MethodShape.Written (written : α → List UInt8 → Prop) :
    MethodShape α → List UInt8 → Prop
  | intro {head : List UInt8} {m : MethodShape α} {parts : List (List UInt8)}
    (hhead : MethodShape.Head written m.params.length m head)
    (hparams : List.Forall₂ (ParamShape.Written written) m.params parts) :
    MethodShape.Written written m (head ++ parts.flatten)

end Shapes

/-- The bytes behind the element type of an array: its rank, its sizes and its lower bounds, the
latter two each behind their number. -/
def arrayShapeBytes (rank : ℕ) (sizes : List ℕ) (bounds : List ℤ) : List UInt8 :=
  compressedBytes rank ++
    (compressedBytes sizes.length ++ (sizes.flatMap compressedBytes ++
      (compressedBytes bounds.length ++ bounds.flatMap signedCompressedBytes)))

namespace TypeSig

/-- The written forms of a type without modifiers before it. The base of an instantiation never has
modifiers. -/
inductive Bare : TypeSig → List UInt8 → Prop
  | primitive (p : PrimitiveType) : Bare (.primitive p) [p.code]
  | pointer {t : TypeSig} {bytes : List UInt8} (h : Modified Bare t bytes) :
    Bare (.pointer t) (ElementKind.pointer.code :: bytes)
  | byRef {t : TypeSig} {bytes : List UInt8} (h : Modified Bare t bytes) :
    Bare (.byRef t) (ElementKind.byRef.code :: bytes)
  | valueType (token : Token) :
    Bare (.valueType token) (ElementKind.valueType.code :: token.typeBytes)
  | classType (token : Token) :
    Bare (.classType token) (ElementKind.classType.code :: token.typeBytes)
  | typeParameter (index : ℕ) :
    Bare (.typeParameter index) (ElementKind.typeParameter.code :: compressedBytes index)
  | methodParameter (index : ℕ) :
    Bare (.methodParameter index) (ElementKind.methodParameter.code :: compressedBytes index)
  | array {t : TypeSig} {bytes : List UInt8} (h : Modified Bare t bytes) (rank : ℕ)
    (sizes : List ℕ) (bounds : List ℤ) (hsizes : sizes.length < 2 ^ 29 ∧ ∀ n ∈ sizes, n < 2 ^ 29)
    (hbounds : bounds.length < 2 ^ 29 ∧ ∀ i ∈ bounds, -0x10000000 ≤ i ∧ i < 0x10000000) :
    Bare (.array t rank)
      (ElementKind.array.code :: (bytes ++ arrayShapeBytes rank sizes bounds))
  | vector {t : TypeSig} {bytes : List UInt8} (h : Modified Bare t bytes) :
    Bare (.vector t) (ElementKind.vector.code :: bytes)
  | instantiation {base : TypeSig} {args : List TypeSig} {bytes : List UInt8}
    {parts : List (List UInt8)} (hbase : Bare base bytes)
    (hargs : List.Forall₂ (Modified Bare) args parts) :
    Bare (.instantiation base args)
      (ElementKind.instantiation.code ::
        (bytes ++ (compressedBytes args.length ++ parts.flatten)))
  | functionPointer {m : MethodSig} {bytes : List UInt8} (h : MethodShape.Written Bare m bytes) :
    Bare (.functionPointer m) (ElementKind.functionPointer.code :: bytes)
  | pinned {t : TypeSig} {bytes : List UInt8} (h : Modified Bare t bytes) :
    Bare (.pinned t) (ElementKind.pinned.code :: bytes)

/-- The written forms of a type. -/
abbrev Written : TypeSig → List UInt8 → Prop :=
  Modified Bare

/-- The byte that a type without modifiers starts with. -/
def headCode : TypeSig → UInt8
  | .primitive p => p.code
  | .pointer _ => ElementKind.pointer.code
  | .byRef _ => ElementKind.byRef.code
  | .valueType _ => ElementKind.valueType.code
  | .classType _ => ElementKind.classType.code
  | .typeParameter _ => ElementKind.typeParameter.code
  | .methodParameter _ => ElementKind.methodParameter.code
  | .array _ _ => ElementKind.array.code
  | .vector _ => ElementKind.vector.code
  | .instantiation _ _ => ElementKind.instantiation.code
  | .functionPointer _ => ElementKind.functionPointer.code
  | .pinned _ => ElementKind.pinned.code

/-- A type without modifiers starts with its own byte. -/
lemma Bare.exists_cons {t : TypeSig} {bytes : List UInt8} (h : Bare t bytes) :
    ∃ content, bytes = t.headCode :: content := by
  cases h <;> exact ⟨_, rfl⟩

/-- No type starts with the mark of a modifier. -/
lemma headCode_ne_modifier (t : TypeSig) :
    ¬(t.headCode = requiredModifier ∨ t.headCode = optionalModifier) := by
  cases t with
  | primitive p => cases p <;> decide
  | _ => rw [headCode]; decide

/-- No type starts with the mark before further arguments. -/
lemma headCode_ne_sentinel (t : TypeSig) : t.headCode ≠ sentinel := by
  cases t with
  | primitive p => cases p <;> decide
  | _ => rw [headCode]; decide

/-- A type that is a reference to a variable. -/
def IsByRef (t : TypeSig) : Prop :=
  ∃ target, t = .byRef target

/-- A type that a token alone names. -/
def IsNamed (t : TypeSig) : Prop :=
  ∃ token, t = .classType token ∨ t = .valueType token

/-- No other type starts with the byte of a reference. -/
lemma isByRef_of_headCode {t : TypeSig} (h : t.headCode = ElementKind.byRef.code) : t.IsByRef := by
  cases t with
  | byRef target => exact ⟨target, rfl⟩
  | primitive p => cases p <;> exact absurd h (by decide)
  | _ => exact absurd h (by rw [headCode]; decide)

/-! ## Nesting -/

mutual

/-- How many types lie around the innermost one in a type, itself included. The base of an
instantiation and the types in a method lie in the type around them. -/
def nesting : TypeSig → ℕ
  | .primitive _ => 1
  | .pointer t => t.nesting + 1
  | .byRef t => t.nesting + 1
  | .valueType _ => 1
  | .classType _ => 1
  | .typeParameter _ => 1
  | .methodParameter _ => 1
  | .array t _ => t.nesting + 1
  | .vector t => t.nesting + 1
  | .instantiation base args => max base.nesting (nestingOfList args) + 1
  | .functionPointer m => nestingOfMethod m + 1
  | .pinned t => t.nesting + 1

/-- The greatest nesting of types in a list. -/
def nestingOfList : List TypeSig → ℕ
  | [] => 0
  | t :: ts => max t.nesting (nestingOfList ts)

/-- The nesting of the type of a parameter. -/
def nestingOfParam : ParamSig → ℕ
  | ⟨_, t⟩ => t.nesting

/-- The greatest nesting of types of parameters. -/
def nestingOfParams : List ParamSig → ℕ
  | [] => 0
  | p :: ps => max (nestingOfParam p) (nestingOfParams ps)

/-- The greatest nesting of types in a method. -/
def nestingOfMethod : MethodSig → ℕ
  | ⟨_, _, _, _, returns, params⟩ => max (nestingOfParam returns) (nestingOfParams params)

end

lemma nestingOfList_eq (ts : List TypeSig) :
    nestingOfList ts = (ts.map nesting).foldr max 0 := by
  induction ts with
  | nil => rfl
  | cons t ts ih => rw [nestingOfList, ih, List.map_cons, List.foldr_cons]

lemma nestingOfParams_eq (ps : List ParamSig) :
    nestingOfParams ps = (ps.map fun p => p.type.nesting).foldr max 0 := by
  induction ps with
  | nil => rfl
  | cons p ps ih => rw [nestingOfParams, nestingOfParam, ih, List.map_cons, List.foldr_cons]

lemma nesting_instantiation (base : TypeSig) (args : List TypeSig) :
    (instantiation base args).nesting =
      max base.nesting ((args.map nesting).foldr max 0) + 1 := by
  rw [nesting, nestingOfList_eq]

end TypeSig

/-- The greatest nesting of types in a method. -/
def MethodSig.nesting (m : MethodSig) : ℕ :=
  max m.returns.type.nesting ((m.params.map fun p => p.type.nesting).foldr max 0)

lemma TypeSig.nesting_functionPointer (m : MethodSig) :
    (functionPointer m).nesting = m.nesting + 1 := by
  rw [nesting, nestingOfMethod, nestingOfParam, nestingOfParams_eq, MethodSig.nesting]

/-! ## What fits the format -/

/-- The numbers of a method fit the format, and a parameter or return value whose type is a
reference is not mistaken for one that is passed by reference. -/
structure MethodShape.Fits (m : MethodSig) : Prop where
  genericCount : m.genericCount < 2 ^ 29
  paramCount : m.params.length < 2 ^ 29
  returns : m.returns.byRef = false → ¬m.returns.type.IsByRef
  params : ∀ p ∈ m.params, p.byRef = false → ¬p.type.IsByRef

/-- The types whose parts fit the format: tokens are those of types, numbers have at most 29 bits,
and what is instantiated is named by a token. -/
inductive TypeSig.Storable : TypeSig → Prop
  | primitive (p : PrimitiveType) : Storable (.primitive p)
  | pointer {t : TypeSig} (h : Storable t) : Storable (.pointer t)
  | byRef {t : TypeSig} (h : Storable t) : Storable (.byRef t)
  | valueType {token : Token} (h : token.NamesType) : Storable (.valueType token)
  | classType {token : Token} (h : token.NamesType) : Storable (.classType token)
  | typeParameter {index : ℕ} (h : index < 2 ^ 29) : Storable (.typeParameter index)
  | methodParameter {index : ℕ} (h : index < 2 ^ 29) : Storable (.methodParameter index)
  | array {t : TypeSig} {rank : ℕ} (h : Storable t) (hrank : rank < 2 ^ 29) :
    Storable (.array t rank)
  | vector {t : TypeSig} (h : Storable t) : Storable (.vector t)
  | instantiation {base : TypeSig} {args : List TypeSig} (hnamed : base.IsNamed)
    (hbase : Storable base) (hcount : args.length < 2 ^ 29) (hargs : ∀ t ∈ args, Storable t) :
    Storable (.instantiation base args)
  | functionPointer {m : MethodSig} (hfits : m.Fits) (hreturns : Storable m.returns.type)
    (hparams : ∀ p ∈ m.params, Storable p.type) : Storable (.functionPointer m)
  | pinned {t : TypeSig} (h : Storable t) : Storable (.pinned t)

/-- The methods whose parts fit the format. -/
structure MethodSig.Storable (m : MethodSig) : Prop where
  fits : m.Fits
  returns : m.returns.type.Storable
  params : ∀ p ∈ m.params, p.type.Storable

/-! ## Existence of written forms -/

section Existence

variable {α : Type} {written : α → List UInt8 → Prop}

/-- Without modifiers. -/
lemma Modified.of_bare {a : α} {bytes : List UInt8} (h : written a bytes) :
    Modified written a bytes :=
  Modified.intro [] h

/-- Members of a list have written forms together when each has one. -/
lemma exists_forall₂_of_forall_mem {as : List α} (h : ∀ a ∈ as, ∃ bytes, written a bytes) :
    ∃ parts, List.Forall₂ written as parts := by
  induction as with
  | nil => exact ⟨[], .nil⟩
  | cons a as ih =>
    obtain ⟨bytes, hbytes⟩ := h a List.mem_cons_self
    obtain ⟨parts, hparts⟩ := ih fun b hb => h b (List.mem_cons_of_mem a hb)
    exact ⟨bytes :: parts, .cons hbytes hparts⟩

/-- A parameter has a written form when its type has one. -/
lemma ParamShape.exists_written {p : ParamShape α} (h : ∃ bytes, written p.type bytes) :
    ∃ bytes, ParamShape.Written written p bytes := by
  obtain ⟨bytes, hbytes⟩ := h
  exact ⟨_, .intro [] (.of_bare hbytes)⟩

/-- A method has a written form when the types in it have one. -/
lemma MethodShape.exists_written {m : MethodShape α}
    (hreturns : ∃ bytes, written m.returns.type bytes)
    (hparams : ∀ p ∈ m.params, ∃ bytes, written p.type bytes) :
    ∃ bytes, MethodShape.Written written m bytes := by
  obtain ⟨back, hback⟩ := ParamShape.exists_written hreturns
  obtain ⟨parts, hparts⟩ := exists_forall₂_of_forall_mem fun p hp =>
    ParamShape.exists_written (hparams p hp)
  refine ⟨_, .intro (@MethodShape.Head.intro α written (if m.vararg then 5 else 0) true
    m.params.length m back ?_ ?_ ?_ hback) hparts⟩
  · split_ifs <;> decide
  · cases m.vararg <;> rfl
  · intro h
    cases h

end Existence

/-- **What fits the format can be written**, without any modifiers, sizes and lower bounds.

**Proof sketch.** By induction on why it fits: the parts have written forms, and the written form of
the whole is put together from them. -/
lemma TypeSig.Storable.exists_bare {t : TypeSig} (h : t.Storable) : ∃ bytes, Bare t bytes := by
  induction h with
  | primitive p => exact ⟨_, .primitive p⟩
  | pointer _ ih =>
    obtain ⟨bytes, hbytes⟩ := ih
    exact ⟨_, .pointer (.of_bare hbytes)⟩
  | byRef _ ih =>
    obtain ⟨bytes, hbytes⟩ := ih
    exact ⟨_, .byRef (.of_bare hbytes)⟩
  | valueType _ => exact ⟨_, .valueType _⟩
  | classType _ => exact ⟨_, .classType _⟩
  | typeParameter _ => exact ⟨_, .typeParameter _⟩
  | methodParameter _ => exact ⟨_, .methodParameter _⟩
  | array _ _ ih =>
    obtain ⟨bytes, hbytes⟩ := ih
    exact ⟨_, .array (.of_bare hbytes) _ [] [] ⟨by decide, by simp⟩ ⟨by decide, by simp⟩⟩
  | vector _ ih =>
    obtain ⟨bytes, hbytes⟩ := ih
    exact ⟨_, .vector (.of_bare hbytes)⟩
  | instantiation _ _ _ _ ihbase ihargs =>
    obtain ⟨bytes, hbytes⟩ := ihbase
    obtain ⟨parts, hparts⟩ := exists_forall₂_of_forall_mem ihargs
    exact ⟨_, .instantiation hbytes (hparts.imp fun _ _ => .of_bare)⟩
  | functionPointer _ _ _ ihreturns ihparams =>
    obtain ⟨bytes, hbytes⟩ := MethodShape.exists_written ihreturns ihparams
    exact ⟨_, .functionPointer hbytes⟩
  | pinned _ ih =>
    obtain ⟨bytes, hbytes⟩ := ih
    exact ⟨_, .pinned (.of_bare hbytes)⟩

lemma TypeSig.Storable.exists_written {t : TypeSig} (h : t.Storable) :
    ∃ bytes, t.Written bytes := by
  obtain ⟨bytes, hbytes⟩ := h.exists_bare
  exact ⟨bytes, .of_bare hbytes⟩

/-- The written forms of a method. -/
abbrev MethodSig.Written : MethodSig → List UInt8 → Prop :=
  MethodShape.Written TypeSig.Bare

/-- A method that fits the format can be written. -/
lemma MethodSig.Storable.exists_written {m : MethodSig} (h : m.Storable) :
    ∃ bytes, m.Written bytes :=
  MethodShape.exists_written h.returns.exists_bare fun p hp => (h.params p hp).exists_bare

end TypeInventory
