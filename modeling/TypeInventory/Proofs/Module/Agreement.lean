import TypeInventory.Proofs.Naming.Agreement

set_option relaxedAutoImplicit false
set_option autoImplicit false

/-!
# Modules of the same types and methods

The fields of types and the parameters of methods lie in tables of their own. This module is about
modules that differ in nothing but these: they name types alike, and their types own the same
methods. Opened modules differ in nothing else when their heaps and their other rows are the same,
since the relations between rows are made from the rows.

## Main definitions

* `MetadataModule.SameTypesAndMethods` — modules that hold the same, but for fields and parameters.
* `OpenModule.Sources`, `OpenModule.HasSources` — what an opened module was read from besides.

## Main results

* `MetadataModule.SameTypesAndMethods.namesAlike`,
  `MetadataModule.SameTypesAndMethods.runOf_method_eq` — the same names, and runs of methods.
* `OpenModule.HasSources.sameTypesAndMethods` — opened modules that were read from the same sources.
-/

namespace TypeInventory

/-! ## Modules with other members -/

namespace MetadataModule

/-- Two modules hold the same, but for fields, parameters and the marks of fields. -/
structure SameTypesAndMethods (m m' : MetadataModule) : Prop where
  /-- They have the same strings. -/
  strings : m'.strings = m.strings
  /-- They have the same signatures. -/
  blobs : m'.blobs = m.blobs
  /-- They refer to the same types. -/
  typeRefs : m.typeRefs.SameRows m'.typeRefs
  /-- They define the same types. -/
  typeDefs : m.typeDefs.SameRows m'.typeDefs
  /-- They have the same constructed types. -/
  typeSpecs : m.typeSpecs.SameRows m'.typeSpecs
  /-- They have the same methods. -/
  methods : m.methods.SameRows m'.methods
  /-- Methods have the same order. -/
  methodPtrs : m.methodPtrs.SameRows m'.methodPtrs
  /-- The same types enclose the same types. -/
  enclosing : ∀ rid : ℕ, m'.enclosing[rid]? = m.enclosing[rid]?
  /-- Types have generic parameters of the same names. -/
  typeGenerics : ∀ rid : ℕ, m'.typeGenerics[rid]? = m.typeGenerics[rid]?
  /-- Methods have generic parameters of the same names. -/
  methodGenerics : ∀ rid : ℕ, m'.methodGenerics[rid]? = m.methodGenerics[rid]?
  /-- The same types carry the mark of compiler-made code. -/
  typeMarks : ∀ rid row, m.typeDefs.get? rid = some row →
    m'.isGenerated row.token = m.isGenerated row.token
  /-- The same methods carry the mark of compiler-made code. -/
  methodMarks : ∀ rid row, m.methods.get? rid = some row →
    m'.isGenerated row.token = m.isGenerated row.token

namespace SameTypesAndMethods

variable {m m' : MetadataModule} (h : m.SameTypesAndMethods m')
include h

/-- Modules that hold the same, but for members, name types alike. -/
lemma namesAlike : m.NamesAlike m' where
  strings := h.strings
  typeRefs := h.typeRefs
  typeDefs := h.typeDefs
  typeSpecs := h.typeSpecs
  signatures _ _ _ := by rw [h.blobs]
  enclosing := h.enclosing
  typeGenerics := h.typeGenerics

/-- In modules that hold the same, but for members, types own the same methods. -/
lemma runOf_method_eq (row : TypeDefRow) : m'.runOf .method row = m.runOf .method row := by
  have hcount : m'.memberCount .method = m.memberCount .method := by
    simp only [ModuleTables.memberCount, h.methodPtrs.rowCount, h.methods.rowCount]
  have hplaces : m'.memberAt? .method = m.memberAt? .method := by
    funext place
    simp only [ModuleTables.memberAt?, h.methodPtrs.rowCount, h.methodPtrs.get?]
  have hnext : (m'.owners .method).get? = (m.owners .method).get? := funext h.typeDefs.get?
  unfold ModuleTables.runOf
  rw [ModuleTables.memberRun_eq rfl, ModuleTables.memberRun_eq rfl, hcount, hplaces, hnext]

end SameTypesAndMethods

end MetadataModule

/-! ## Opened modules -/

namespace OpenModule

/-- What a module holds, but for fields, parameters and marks. -/
structure Sources where
  /-- The bytes of the strings. -/
  strings : List UInt8
  /-- The bytes of the signatures. -/
  blobs : List UInt8
  /-- The types that the module refers to. -/
  typeRefs : List TypeRefRow
  /-- The types that the module defines. -/
  typeDefs : List TypeDefRow
  /-- The constructed types. -/
  typeSpecs : List TypeSpecRow
  /-- The methods. -/
  methods : List MethodDefRow
  /-- The order of methods. -/
  methodPtrs : List MethodPtrRow
  /-- The types that are nested in others. -/
  nestedClasses : List NestedClassRow
  /-- The generic parameters. -/
  genericParams : List GenericParamRow

/-- An opened module was read from the given sources. -/
@[mk_iff]
structure HasSources (m : OpenModule) (s : Sources) : Prop where
  /-- It has these heaps. -/
  heaps : m.strings.data.data.toList = s.strings ∧ m.blobs.data.data.toList = s.blobs
  /-- It has these types. -/
  types : m.indexed.typeRefs.Holds s.typeRefs ∧ m.indexed.typeDefs.Holds s.typeDefs ∧
    m.indexed.typeSpecs.Holds s.typeSpecs
  /-- It has these methods. -/
  methods : m.indexed.methods.Holds s.methods ∧ m.indexed.methodPtrs.Holds s.methodPtrs
  /-- It has these relations between rows. -/
  relations : (m.tables.table NestedClassRow).rows = s.nestedClasses ∧
    (m.tables.table GenericParamRow).rows = s.genericParams

instance (m : OpenModule) (s : Sources) : Decidable (m.HasSources s) :=
  decidable_of_iff' _ (m.hasSources_iff s)

/-- What carries the mark of compiler-made code is listed. -/
lemma isGenerated_eq_contains (m : MetadataModule) (token : Token) :
    m.isGenerated token = m.generated.toList.contains token.value.toNat :=
  Std.TreeSet.contains_toList.symm

/-- **Opened modules that were read from the same sources** hold the same, but for fields and
parameters, if only fields carry other marks: the other relations between rows are made from the
rows. -/
lemma HasSources.sameTypesAndMethods {m m' : OpenModule} {s : Sources} (h : m.HasSources s)
    (h' : m'.HasSources s) (hmarks : ∀ token : Token, token.table ≠ TableId.field.number →
      m'.indexed.isGenerated token = m.indexed.isGenerated token) :
    m.indexed.SameTypesAndMethods m'.indexed := by
  have hdata : ∀ {data data' : ByteArray} {bytes : List UInt8}, data.data.toList = bytes →
      data'.data.toList = bytes → data' = data := fun hbytes hbytes' =>
    ByteArray.ext (Array.toList_inj.mp (hbytes'.trans hbytes.symm))
  have hstrings : m'.strings = m.strings :=
    congrArg StringHeap.mk (hdata h.heaps.1 h'.heaps.1)
  have hnested : (m'.tables.table NestedClassRow).rows = (m.tables.table NestedClassRow).rows :=
    h'.relations.1.trans h.relations.1.symm
  have hnamed : namedGenerics m'.strings (m'.tables.table GenericParamRow).rows =
      namedGenerics m.strings (m.tables.table GenericParamRow).rows := by
    rw [hstrings, h'.relations.2, h.relations.2]
  refine ⟨hstrings, congrArg BlobHeap.mk (hdata h.heaps.2 h'.heaps.2),
    h.types.1.sameRows h'.types.1, h.types.2.1.sameRows h'.types.2.1,
    h.types.2.2.sameRows h'.types.2.2, h.methods.1.sameRows h'.methods.1,
    h.methods.2.sameRows h'.methods.2, fun rid => ?_, fun rid => ?_, fun rid => ?_,
    fun _ row _ => hmarks _ ?_, fun _ row _ => hmarks _ ?_⟩
  · show (enclosingTypes (m'.tables.table NestedClassRow).rows)[rid]? = _
    rw [hnested]
    rfl
  · show (genericNames .typeDef
      (namedGenerics m'.strings (m'.tables.table GenericParamRow).rows).2)[rid]? = _
    rw [hnamed]
    rfl
  · show (genericNames .methodDef
      (namedGenerics m'.strings (m'.tables.table GenericParamRow).rows).2)[rid]? = _
    rw [hnamed]
    rfl
  · rw [TypeDefRow.token, TableId.token, Token.table_ofParts]
    decide
  · rw [MethodDefRow.token, TableId.token, Token.table_ofParts]
    decide

end OpenModule

end TypeInventory
