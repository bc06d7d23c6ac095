import TypeInventory.Proofs.Bytes.Locality
import TypeInventory.Proofs.Module.Parameters

set_option relaxedAutoImplicit false
set_option autoImplicit false

/-!
# Types are resolved from their own signatures

All signatures of a module lie in one heap. To resolve a type, only some of them are looked at:
those of its own fields and methods, and those of the constructed types, to which the signatures
lead. Nothing of the others reaches the type. So a heap that is damaged at the signatures of other
types gives the same type, or the same failure, and the same warnings.

## Main definitions

* `MetadataModule.withBlobs`, `OpenModule.withBlobs` — the same module with another heap.
* `MetadataModule.Consults` — which places of the heap a type may be resolved from.

## Main results

* `MetadataModule.namesAlike_withBlobs` — names depend only on the signatures of constructed types.
* `MetadataModule.resolveType_withBlobs` — types depend only on the signatures that they consult.
* `OpenModule.types_isolated` — a type is the same in a module that is damaged elsewhere.
-/

namespace TypeInventory

/-! ## Modules with other blobs -/

namespace MetadataModule

/-- The same module with another heap of blobs. -/
def withBlobs (m : MetadataModule) (heap : BlobHeap) : MetadataModule :=
  { m with blobs := heap }

/-- The places of the blobs that a type may be resolved from: the signatures of all constructed
types, of the fields of the type and of its methods. -/
inductive Consults (m : MetadataModule) (row : TypeDefRow) : ℕ → Prop where
  /-- The signature of a constructed type. -/
  | typeSpec {rid : ℕ} {spec : TypeSpecRow} (hspec : m.typeSpecs.get? rid = some spec) :
    Consults m row spec.signature
  /-- The signature of a field of the type. -/
  | field {rid : ℕ} {field : FieldRow} (howns : m.Owns .field row rid)
    (hfield : m.fields.get? rid = some field) : Consults m row field.signature
  /-- The signature of a method of the type. -/
  | method {rid : ℕ} {method : MethodDefRow} (howns : m.Owns .method row rid)
    (hmethod : m.methods.get? rid = some method) : Consults m row method.signature

variable {m : MetadataModule} {heap : BlobHeap}

@[simp]
lemma typeGenerics_withBlobs : (m.withBlobs heap).typeGenerics = m.typeGenerics := rfl

@[simp]
lemma fields_withBlobs : (m.withBlobs heap).fields = m.fields := rfl

/-- **Names depend only on the signatures of constructed types**: a heap that gives the same there
changes no name. -/
lemma namesAlike_withBlobs (hspecs : ∀ rid spec, m.typeSpecs.get? rid = some spec →
    heap.get spec.signature = m.blobs.get spec.signature) : m.NamesAlike (m.withBlobs heap) where
  strings := rfl
  typeRefs := .refl _
  typeDefs := .refl _
  typeSpecs := .refl _
  signatures := hspecs
  enclosing _ := rfl
  typeGenerics _ := rfl

/-! ## Members with the same signatures -/

section Members

variable (hspecs : ∀ rid spec, m.typeSpecs.get? rid = some spec →
    heap.get spec.signature = m.blobs.get spec.signature)
include hspecs

/-- A field reads no further blob but its own signature. -/
lemma resolveField_withBlobs {typeParameters : List String} {rid : ℕ}
    (hown : ∀ field, m.fields.get? rid = some field →
      heap.get field.signature = m.blobs.get field.signature) :
    (m.withBlobs heap).resolveField typeParameters rid = m.resolveField typeParameters rid := by
  unfold resolveField
  rw [(namesAlike_withBlobs hspecs).signatureName_eq, fields_withBlobs]
  cases hrow : m.fields.get? rid with
  | none => rfl
  | some field =>
    have hblob : (m.withBlobs heap).blobs.get field.signature = m.blobs.get field.signature :=
      hown field hrow
    simp only [hblob]
    rfl

/-- A method reads no further blob but its own signature. -/
lemma resolveMethod_withBlobs {typeParameters : List String} {rid : ℕ}
    (hown : ∀ method, m.methods.get? rid = some method →
      heap.get method.signature = m.blobs.get method.signature) :
    (m.withBlobs heap).resolveMethod typeParameters rid = m.resolveMethod typeParameters rid :=
  (namesAlike_withBlobs hspecs).resolveMethod_eq (fun _ => rfl) rfl rfl
    (fun method hrow => ⟨hown method hrow, rfl⟩) fun _ _ _ _ _ => rfl

end Members

/-- **A type depends only on the signatures that it consults.** With another heap that gives the
same there, or fails there alike, it is resolved to the same, with the same warnings. -/
lemma resolveType_withBlobs {row : TypeDefRow}
    (h : ∀ index, m.Consults row index → heap.get index = m.blobs.get index) :
    (m.withBlobs heap).resolveType row = m.resolveType row := by
  have hspecs : ∀ rid spec, m.typeSpecs.get? rid = some spec →
      heap.get spec.signature = m.blobs.get spec.signature :=
    fun _ _ hspec => h _ (.typeSpec hspec)
  unfold resolveType
  refine Resolution.bind_congr fun name _ => ?_
  by_cases hmodule : name = moduleTypeName
  · rw [if_pos hmodule, if_pos hmodule]
  · rw [if_neg hmodule, if_neg hmodule]
    rw [(namesAlike_withBlobs hspecs).fullName_eq, (namesAlike_withBlobs hspecs).typeKind_eq]
    refine Resolution.bind_congr fun fullName _ => ?_
    refine Resolution.bind_congr fun kind _ => ?_
    refine Resolution.bind_congr fun fieldRows hfields => ?_
    have hfield : ∀ rid ∈ fieldRows,
        Resolution.ofExcept
            ((m.withBlobs heap).resolveField (m.typeGenerics[row.rid]?.getD []) rid) =
          Resolution.ofExcept (m.resolveField (m.typeGenerics[row.rid]?.getD []) rid) := by
      intro rid hrid
      rw [resolveField_withBlobs hspecs fun field hrow =>
        h _ (.field ⟨fieldRows, hfields, hrid⟩ hrow)]
    rw [typeGenerics_withBlobs, Resolution.forEach_congr hfield]
    refine Resolution.bind_congr fun fields _ => ?_
    refine Resolution.bind_congr fun methodRows hmethods => ?_
    have hmethod : ∀ rid ∈ methodRows,
        (m.withBlobs heap).resolveMethod (m.typeGenerics[row.rid]?.getD []) rid =
          m.resolveMethod (m.typeGenerics[row.rid]?.getD []) rid := by
      intro rid hrid
      exact resolveMethod_withBlobs hspecs fun method hrow =>
        h _ (.method ⟨methodRows, hmethods, hrid⟩ hrow)
    rw [Resolution.forEach_congr hmethod]
    rfl

end MetadataModule

/-! ## Damaged modules -/

namespace OpenModule

/-- The same opened module with another heap of blobs. -/
def withBlobs (m : OpenModule) (heap : BlobHeap) : OpenModule :=
  { m with blobs := heap }

variable {m : OpenModule} {heap : BlobHeap} {find? : Option (String → Option String)}
  {row : TypeDefRow}

/-- A row with the same outcome in another heap is listed there alike. -/
lemma mem_types_withBlobs {type : TypeInfo} (hrow : row ∈ m.typeDefs.rows)
    (h : (m.withBlobs heap).outcome row = m.outcome row)
    (htype : (m.outcome row).type? = some type) :
    type ∈ (m.load find?).1.types ∧ type ∈ ((m.withBlobs heap).load find?).1.types := by
  rw [types_load, types_load, List.mem_filterMap, List.mem_filterMap]
  exact ⟨⟨_, List.mem_map_of_mem hrow, htype⟩,
    (m.withBlobs heap).outcome row, List.mem_map_of_mem hrow, h ▸ htype⟩

/-- A row with the same outcome in another heap leaves the same error there. -/
lemma mem_diagnostics_withBlobs {d : Diagnostic} (hrow : row ∈ m.typeDefs.rows)
    (h : (m.withBlobs heap).outcome row = m.outcome row)
    (hd : (m.outcome row).failure? = some d) :
    d ∈ (m.load find?).1.diagnostics ∧ d ∈ ((m.withBlobs heap).load find?).1.diagnostics := by
  obtain ⟨warnings, -, hdiagnostics⟩ := m.exists_diagnostics_load find?
  obtain ⟨warnings', -, hdiagnostics'⟩ := (m.withBlobs heap).exists_diagnostics_load find?
  rw [hdiagnostics, hdiagnostics', List.mem_append, List.mem_append, List.mem_filterMap,
    List.mem_filterMap]
  exact ⟨.inr ⟨_, List.mem_map_of_mem hrow, hd⟩,
    .inr ⟨(m.withBlobs heap).outcome row, List.mem_map_of_mem hrow, h ▸ hd⟩⟩

/-- **Types are isolated from each other's signatures.** With another heap that gives the same
blobs, or fails for the same reason, at all places that a type consults, the type is resolved to the
same, with the same warnings. So when a module is damaged elsewhere, at whichever bytes that belong
to none of the entries that the type consults, the same becomes of the type: it is still listed as
it was, or it still leaves the error that it left.

**Proof sketch.** Naming reads signatures of constructed types alone (`namesAlike_withBlobs`), and a
member reads its own signature besides; the members of a type are found without blobs
(`resolveType_withBlobs`). A blob in turn depends on the bytes of its own entry alone
(`BlobHeap.get_eq_of_sameEntry`). -/
theorem types_isolated :
    (∀ (m : MetadataModule) (heap : BlobHeap) (row : TypeDefRow),
      (∀ index, m.Consults row index → heap.get index = m.blobs.get index) →
        (m.withBlobs heap).resolveType row = m.resolveType row) ∧
    ∀ (m : OpenModule) (heap : BlobHeap) (row : TypeDefRow)
      (find? : Option (String → Option String)), row ∈ m.typeDefs.rows →
      heap.data.size = m.blobs.data.size →
      (∀ index, m.indexed.Consults row index → m.blobs.SameEntry heap index) →
        (m.withBlobs heap).outcome row = m.outcome row ∧
        (∀ type, (m.outcome row).type? = some type →
          type ∈ (m.load find?).1.types ∧ type ∈ ((m.withBlobs heap).load find?).1.types) ∧
        ∀ d, (m.outcome row).failure? = some d →
          d ∈ (m.load find?).1.diagnostics ∧
            d ∈ ((m.withBlobs heap).load find?).1.diagnostics := by
  refine ⟨fun m heap row => MetadataModule.resolveType_withBlobs, ?_⟩
  intro m heap row find? hrow hsize hentries
  have hresolve : (m.indexed.withBlobs heap).resolveType row = m.indexed.resolveType row :=
    MetadataModule.resolveType_withBlobs fun index hindex =>
      BlobHeap.get_eq_of_sameEntry hsize (hentries index hindex)
  have houtcome : (m.withBlobs heap).outcome row = m.outcome row := by
    show TypeOutcome.mk row ((m.indexed.withBlobs heap).resolveType row) = _
    rw [hresolve]
    rfl
  exact ⟨houtcome, fun _ => mem_types_withBlobs hrow houtcome,
    fun _ => mem_diagnostics_withBlobs hrow houtcome⟩

/-- Metadata with two types that own a field each. The field of the second one is of a constructed
type. -/
def twoFieldsMetadata : ByteArray :=
  ⟨
    #[0x42, 0x53, 0x4A, 0x42, 0x01, 0x00, 0x01, 0x00, 0x00, 0x00, 0x00, 0x00, 0x04, 0x00, 0x00,
      0x00, 0x76, 0x34, 0x00, 0x00, 0x00, 0x00, 0x03, 0x00, 0x48, 0x00, 0x00, 0x00, 0x4E, 0x00,
      0x00, 0x00, 0x23, 0x7E, 0x00, 0x00, 0x96, 0x00, 0x00, 0x00, 0x05, 0x00, 0x00, 0x00, 0x23,
      0x53, 0x74, 0x72, 0x69, 0x6E, 0x67, 0x73, 0x00, 0x00, 0x00, 0x00, 0x9B, 0x00, 0x00, 0x00,
      0x0B, 0x00, 0x00, 0x00, 0x23, 0x42, 0x6C, 0x6F, 0x62, 0x00, 0x00, 0x00, 0x00, 0x00, 0x00,
      0x00, 0x02, 0x00, 0x00, 0x01, 0x14, 0x00, 0x00, 0x08, 0x00, 0x00, 0x00, 0x00, 0x00, 0x00,
      0x00, 0x00, 0x00, 0x00, 0x00, 0x00, 0x02, 0x00, 0x00, 0x00, 0x02, 0x00, 0x00, 0x00, 0x01,
      0x00, 0x00, 0x00, 0x00, 0x00, 0x00, 0x00, 0x01, 0x00, 0x00, 0x00, 0x00, 0x00, 0x01, 0x00,
      0x01, 0x00, 0x00, 0x00, 0x00, 0x00, 0x03, 0x00, 0x00, 0x00, 0x00, 0x00, 0x02, 0x00, 0x01,
      0x00, 0x00, 0x00, 0x01, 0x00, 0x04, 0x00, 0x00, 0x00, 0x03, 0x00, 0x07, 0x00, 0x01, 0x00,
      0x00, 0x41, 0x00, 0x42, 0x00, 0x00, 0x02, 0x1D, 0x08, 0x02, 0x06, 0x08, 0x03, 0x06, 0x12,
      0x06]⟩

/-- The signatures of the same module, of which that of the first field no longer starts as one. -/
def damagedBlobs : BlobHeap :=
  ⟨⟨#[0x00, 0x02, 0x1D, 0x08, 0x02, 0x07, 0x08, 0x03, 0x06, 0x12, 0x06]⟩⟩

/-- A damaged module by the general law: its first type is lost, and the second one is listed as
before. -/
theorem isolated_twoFieldsMetadata :
    ∃ m row type, ofMetadata twoFieldsMetadata = .ok m ∧ m.typeDefs.get? 2 = some row ∧
      (m.load none).1.types.map TypeInfo.name = ["A", "B"] ∧
      ((m.withBlobs damagedBlobs).load none).1.types.map TypeInfo.name = ["B"] ∧
      type.fields.map (fun f => f.type.simpleName) = ["Int32[]"] ∧
      type ∈ (m.load none).1.types ∧ type ∈ ((m.withBlobs damagedBlobs).load none).1.types := by
  have htest : (ofMetadata twoFieldsMetadata).toOption.any (fun m =>
      m.typeDefs.get? 2 = some ⟨2, 0, 3, 0, ⟨.typeDef, 0⟩, 2, 1⟩ ∧
      (⟨2, 0, 3, 0, ⟨.typeDef, 0⟩, 2, 1⟩ : TypeDefRow) ∈ m.typeDefs.rows ∧
      (m.indexed.typeSpecs.rowCount = 1 ∧ m.indexed.typeSpecs.get? 1 = some ⟨1, 1⟩) ∧
      (m.indexed.runOf .field ⟨2, 0, 3, 0, ⟨.typeDef, 0⟩, 2, 1⟩).result.toOption = some [2] ∧
      (m.indexed.fields.get? 2 = some ⟨2, 0, 3, 7⟩) ∧
      (m.indexed.runOf .method ⟨2, 0, 3, 0, ⟨.typeDef, 0⟩, 2, 1⟩).result.toOption = some [] ∧
      damagedBlobs.data.size = m.blobs.data.size ∧
      (m.blobs.SameEntry damagedBlobs 1 ∧ m.blobs.SameEntry damagedBlobs 7) ∧
      (m.load none).1.types.map TypeInfo.name = ["A", "B"] ∧
      ((m.withBlobs damagedBlobs).load none).1.types.map TypeInfo.name = ["B"] ∧
      (m.outcome ⟨2, 0, 3, 0, ⟨.typeDef, 0⟩, 2, 1⟩).type?.any (fun type =>
        type.fields.map (fun f => f.type.simpleName) = ["Int32[]"]) = true) = true := by
    decide +kernel
  obtain ⟨m, hopen, htest⟩ := exists_ok_of_any htest
  obtain ⟨hget, hrow, ⟨hspecs, hspec⟩, hfields, hfield, hmethods, hsize, ⟨hone, hseven⟩, hbefore,
    hafter, htype⟩ := of_decide_eq_true htest
  obtain ⟨type, htype, hnames⟩ := (Option.any_eq_true _ _).mp htype
  -- The second type consults the only constructed type and its own field; it has no methods.
  have hentries : ∀ index, m.indexed.Consults ⟨2, 0, 3, 0, ⟨.typeDef, 0⟩, 2, 1⟩ index →
      m.blobs.SameEntry damagedBlobs index := by
    intro index hindex
    cases hindex with
    | @typeSpec rid spec hrid =>
      obtain ⟨⟨hpos, hle⟩, -⟩ :=
        (@Table.get?_eq_some_iff .typeSpec m.indexed.typeSpecs rid spec).mp hrid
      obtain rfl : rid = 1 := by omega
      rw [hspec] at hrid
      cases hrid
      exact hone
    | field howns hrid =>
      have hmem := howns.mem (eq_ok_of_toOption_eq_some hfields)
      obtain rfl := List.mem_singleton.mp hmem
      rw [hfield] at hrid
      cases hrid
      exact hseven
    | method howns hrid =>
      have hmem := howns.mem (eq_ok_of_toOption_eq_some hmethods)
      cases hmem
  obtain ⟨-, hlisted, -⟩ := types_isolated.2 m damagedBlobs _ none hrow hsize hentries
  exact ⟨m, _, type, hopen, hget, hbefore, hafter, of_decide_eq_true hnames, hlisted type htype⟩

end OpenModule

end TypeInventory
