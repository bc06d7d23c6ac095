import TypeInventory.Proofs.Written.Loading

set_option relaxedAutoImplicit false
set_option autoImplicit false

/-!
# Serialised modules

A module is serialised by putting its names and signatures into heaps, one behind the other, and
writing its tables with the places where they came to lie. Places are as wide as the sizes of the
heaps ask for. Loading what was serialised gives the module back.

## Main definitions

* `MemberType.bytes`, `FieldDecl.blob`, `MethodDecl.blob` — signatures without modifiers.
* `ModuleDecl.heaps`, `ModuleDecl.places` — the heaps of a module, and the places in them.
* `ModuleDecl.metadata` — the serialised module.

## Main results

* `ModuleDecl.placedIn_heaps` — all names and signatures lie at their places.
* `ModuleDecl.load_metadata` — a serialised module is loaded to its declarations.
-/

namespace TypeInventory

/-! ## Signatures -/

/-- The signature of a type of a member. -/
def MemberType.bytes : MemberType → List UInt8
  | .primitive p => [p.code]
  | .vector element => ElementKind.vector.code :: element.bytes
  | .pointer target => ElementKind.pointer.code :: target.bytes
  | .classType index =>
    ElementKind.classType.code :: (TableId.typeDef.token (index + 1)).typeBytes
  | .valueType index =>
    ElementKind.valueType.code :: (TableId.typeDef.token (index + 1)).typeBytes

/-- The signature of a field. -/
def FieldDecl.blob (f : FieldDecl) : List UInt8 :=
  fieldMark :: f.type.bytes

/-- The signature of a method: its first byte, the number of its parameters, what it returns, and
its parameters. -/
def MethodDecl.blob (d : MethodDecl) : List UInt8 :=
  conventionByte 0 false (!d.flags.toNat.testBit staticBit) false ::
      (compressedBytes d.params.length ++ d.returns.bytes) ++
    d.params.flatMap fun p => p.type.bytes

/-- The signature of a type is one of its written forms. -/
lemma MemberType.bare_bytes (t : MemberType) : t.signature.Bare t.bytes := by
  induction t with
  | primitive p => exact .primitive p
  | vector element ih => exact .vector (.of_bare ih)
  | pointer target ih => exact .pointer (.of_bare ih)
  | classType index => exact .classType _
  | valueType index => exact .valueType _

/-- The signature of a method is one of its written forms. -/
lemma MethodDecl.written_blob (d : MethodDecl) : d.signature.Written d.blob := by
  have hparam : ∀ t : MemberType,
      ParamShape.Written TypeSig.Bare ⟨false, t.signature⟩ t.bytes := fun t =>
    .intro [] (.of_bare t.bare_bytes)
  have hhead : MethodShape.Head TypeSig.Bare d.signature.params.length d.signature
      (conventionByte 0 false (!d.flags.toNat.testBit staticBit) false ::
        (compressedBytes d.params.length ++ d.returns.bytes)) := by
    have hcount : d.signature.params.length = d.params.length := List.length_map _
    rw [← hcount]
    exact @MethodShape.Head.intro TypeSig TypeSig.Bare 0 false d.signature.params.length d.signature
      d.returns.bytes (by decide) rfl (fun _ => rfl) (hparam d.returns)
  have hparams : List.Forall₂ (ParamShape.Written TypeSig.Bare) d.signature.params
      (d.params.map fun p => p.type.bytes) := by
    rw [MethodDecl.signature, List.forall₂_map_left_iff, List.forall₂_map_right_iff,
      List.forall₂_same]
    exact fun p _ => hparam p.type
  rw [MethodDecl.blob, List.flatMap_def]
  exact .intro hhead hparams

/-! ### Lengths -/

/-- A number takes at most four bytes. -/
lemma length_compressedBytes_le (n : ℕ) : (compressedBytes n).length ≤ 4 := by
  unfold compressedBytes
  split_ifs
  · exact Nat.succ_le_succ (Nat.zero_le 3)
  · exact Nat.succ_le_succ (Nat.succ_le_succ (Nat.zero_le 2))
  · exact Nat.le_refl 4

/-- A type takes one byte for each of its levels, and at most four more. -/
lemma MemberType.length_bytes_le (t : MemberType) : t.bytes.length ≤ t.signature.nesting + 4 := by
  induction t with
  | primitive p => exact Nat.le_add_right 1 4
  | vector element ih =>
    rw [bytes, signature, TypeSig.nesting, List.length_cons]
    omega
  | pointer target ih =>
    rw [bytes, signature, TypeSig.nesting, List.length_cons]
    omega
  | classType index | valueType index =>
    have htoken := length_compressedBytes_le ((TableId.typeDef.token (index + 1)).row <<< 2 +
      (TableId.typeDef.token (index + 1)).typeTag)
    rw [bytes, signature, TypeSig.nesting, List.length_cons, Token.typeBytes]
    omega

/-- The types of members of a module take few bytes. -/
lemma MemberType.Fits.length_bytes_lt {types : List TypeDecl} {t : MemberType} (h : t.Fits types) :
    t.bytes.length < 2 ^ 6 := by
  have hle := t.length_bytes_le
  have hnesting := h.nesting
  rw [nestingLimit] at hnesting
  omega

/-- Lists that are joined take at most as much room as their number and the longest of them say. -/
lemma length_flatMap_le {α β : Type} {f : α → List β} {as : List α} {bound : ℕ}
    (h : ∀ a ∈ as, (f a).length ≤ bound) : (as.flatMap f).length ≤ as.length * bound := by
  have hsum : (as.map fun a => (f a).length).sum ≤
      (as.map fun a => (f a).length).length • bound := by
    refine List.sum_le_card_nsmul _ bound fun n hn => ?_
    obtain ⟨a, ha, rfl⟩ := List.mem_map.mp hn
    exact h a ha
  rw [List.length_map, smul_eq_mul] at hsum
  rw [List.length_flatMap]
  exact hsum

/-- The signature of a field can be stored as a blob. -/
lemma FieldDecl.Fits.length_blob_lt {types : List TypeDecl} {f : FieldDecl} (h : f.Fits types) :
    f.blob.length < 2 ^ 29 := by
  have htype := h.type.length_bytes_lt
  rw [FieldDecl.blob, List.length_cons]
  omega

/-- The signature of a method can be stored as a blob. -/
lemma MethodDecl.Fits.length_blob_lt {types : List TypeDecl} {d : MethodDecl} (h : d.Fits types) :
    d.blob.length < 2 ^ 29 := by
  have hcount := length_compressedBytes_le d.params.length
  have hreturns := h.returns.length_bytes_lt
  have hparams : (d.params.flatMap fun p => p.type.bytes).length ≤ d.params.length * 2 ^ 6 :=
    length_flatMap_le fun p hp => Nat.le_of_lt (h.params p hp).type.length_bytes_lt
  have hparamCount := h.paramCount
  rw [MethodDecl.blob, List.length_append, List.length_cons, List.length_append]
  omega

/-! ## Heaps -/

namespace ModuleDecl

/-- The names of a module and of all declarations. -/
def names (M : ModuleDecl) : List String :=
  M.name :: (M.types.map TypeDecl.name ++ (M.types.map TypeDecl.typeNamespace ++
    (M.fields.map FieldDecl.name ++ (M.methods.map MethodDecl.name ++
      M.params.map fun p => p.1.name))))

/-- The signatures of all members. -/
def blobs (M : ModuleDecl) : List (List UInt8) :=
  M.fields.map FieldDecl.blob ++ M.methods.map MethodDecl.blob

/-- The heaps with these names and signatures. -/
def heaps (M : ModuleDecl) : Heaps where
  strings := heapBytes (M.names.map stringEntry)
  blobs := heapBytes (M.blobs.map blobEntry)
  wideStrings := 2 ^ 16 ≤ (heapBytes (M.names.map stringEntry)).length
  wideGuids := false
  wideBlobs := 2 ^ 16 ≤ (heapBytes (M.blobs.map blobEntry)).length

/-- Where a name lies: at the first of the names that are equal to it. -/
def stringPlace (M : ModuleDecl) (name : String) : ℕ :=
  entryPlace (M.names.map stringEntry) (M.names.idxOf name)

/-- Where a signature lies: at the first of those that are equal to it. -/
def blobPlace (M : ModuleDecl) (blob : List UInt8) : ℕ :=
  entryPlace (M.blobs.map blobEntry) (M.blobs.idxOf blob)

/-- Where the names and the signatures of a module lie. -/
def places (M : ModuleDecl) : Placement where
  moduleName := M.stringPlace M.name
  typeName i := (M.types[i]?.map fun t => M.stringPlace t.name).getD 0
  typeNamespace i := (M.types[i]?.map fun t => M.stringPlace t.typeNamespace).getD 0
  fieldName i := (M.fields[i]?.map fun f => M.stringPlace f.name).getD 0
  fieldSignature i := (M.fields[i]?.map fun f => M.blobPlace f.blob).getD 0
  methodName i := (M.methods[i]?.map fun d => M.stringPlace d.name).getD 0
  methodSignature i := (M.methods[i]?.map fun d => M.blobPlace d.blob).getD 0
  paramName i := (M.params[i]?.map fun p => M.stringPlace p.1.name).getD 0

/-- The serialised module. -/
def metadata (M : ModuleDecl) : ByteArray :=
  M.metadataIn M.places M.heaps

variable {M : ModuleDecl}

/-- A place in a heap fits its column, if the heap is not larger than a module. -/
lemma lt_of_heap {place length : ℕ} (hplace : place < length) (hlength : length < 2 ^ 32) :
    place < 2 ^ (8 * Layout.width (decide (2 ^ 16 ≤ length))) := by
  by_cases h : 2 ^ 16 ≤ length
  · rw [decide_eq_true h]
    exact Nat.lt_trans hplace hlength
  · rw [decide_eq_false h]
    exact Nat.lt_trans hplace (Nat.not_le.mp h)

/-- A name of the module is found at its place. -/
lemma hasString_stringPlace {name : String} (hlength : M.heaps.strings.length < 2 ^ 32)
    (h : name ∈ M.names) : M.heaps.HasString (M.stringPlace name) name := by
  have hentry : (M.names.map stringEntry)[M.names.idxOf name]? = some (stringEntry name) := by
    rw [List.getElem?_map, List.getElem?_idxOf h]
    rfl
  exact ⟨lt_of_heap (entryPlace_lt hentry (stringEntry_ne_nil name)) hlength, _,
    drop_heapBytes hentry⟩

/-- A signature of the module is found at its place. -/
lemma hasBlob_blobPlace {blob : List UInt8} (hlength : M.heaps.blobs.length < 2 ^ 32)
    (h : blob ∈ M.blobs) (hne : blob ≠ []) (hblob : blob.length < 2 ^ 29) :
    M.heaps.HasBlob (M.blobPlace blob) blob := by
  have hentry : (M.blobs.map blobEntry)[M.blobs.idxOf blob]? = some (blobEntry blob) := by
    rw [List.getElem?_map, List.getElem?_idxOf h]
    rfl
  exact ⟨lt_of_heap (entryPlace_lt hentry (blobEntry_ne_nil hne)) hlength, hblob, _,
    drop_heapBytes hentry⟩

/-- The heaps are no larger than the module. -/
lemma length_heaps_le (places : Placement) (heaps : Heaps) :
    heaps.strings.length ≤ (M.metadataIn places heaps).size ∧
      heaps.blobs.length ≤ (M.metadataIn places heaps).size := by
  have hsize := heaps.size_metadataWith (M.tableSource places heaps)
  change (M.metadataIn places heaps).size = _ at hsize
  omega

lemma mem_names_iff {name : String} :
    name ∈ M.names ↔ name = M.name ∨ (∃ t ∈ M.types, t.name = name) ∨
      (∃ t ∈ M.types, t.typeNamespace = name) ∨ (∃ f ∈ M.fields, f.name = name) ∨
      (∃ d ∈ M.methods, d.name = name) ∨ ∃ p ∈ M.params, p.1.name = name := by
  simp only [names, List.mem_cons, List.mem_append, List.mem_map]

/-- **All names and signatures lie at their places.** -/
lemma placedIn_heaps (hM : M.Fits) (hsize : M.metadata.size < 2 ^ 32) :
    M.PlacedIn M.places M.heaps := by
  obtain ⟨hstrings, hblobs⟩ := M.length_heaps_le M.places M.heaps
  replace hstrings := Nat.lt_of_le_of_lt hstrings hsize
  replace hblobs := Nat.lt_of_le_of_lt hblobs hsize
  have hstring : ∀ name ∈ M.names, M.heaps.HasString (M.stringPlace name) name :=
    fun name hname => hasString_stringPlace hstrings hname
  exact {
    strings_head := rfl
    blobs_head := rfl
    moduleName := hstring M.name (mem_names_iff.mpr (.inl rfl))
    typeName := by
      intro i t ht
      have hmem : t.name ∈ M.names :=
        mem_names_iff.mpr (.inr (.inl ⟨t, List.mem_of_getElem? ht, rfl⟩))
      simp only [places, ht, Option.map_some, Option.getD_some]
      exact hstring t.name hmem
    typeNamespace := by
      intro i t ht
      have hmem : t.typeNamespace ∈ M.names :=
        mem_names_iff.mpr (.inr (.inr (.inl ⟨t, List.mem_of_getElem? ht, rfl⟩)))
      simp only [places, ht, Option.map_some, Option.getD_some]
      exact hstring t.typeNamespace hmem
    fieldName := by
      intro i f hf
      have hmem : f.name ∈ M.names :=
        mem_names_iff.mpr (.inr (.inr (.inr (.inl ⟨f, List.mem_of_getElem? hf, rfl⟩))))
      simp only [places, hf, Option.map_some, Option.getD_some]
      exact hstring f.name hmem
    fieldSignature := by
      intro i f hf
      have hmem : f ∈ M.fields := List.mem_of_getElem? hf
      have hblob : f.blob ∈ M.blobs := List.mem_append_left _ (List.mem_map_of_mem hmem)
      simp only [places, hf, Option.map_some, Option.getD_some]
      exact ⟨f.type.bytes, .of_bare f.type.bare_bytes,
        hasBlob_blobPlace hblobs hblob (List.cons_ne_nil _ _) (hM.field hmem).length_blob_lt⟩
    methodName := by
      intro i d hd
      have hmem : d.name ∈ M.names :=
        mem_names_iff.mpr (.inr (.inr (.inr (.inr (.inl ⟨d, List.mem_of_getElem? hd, rfl⟩)))))
      simp only [places, hd, Option.map_some, Option.getD_some]
      exact hstring d.name hmem
    methodSignature := by
      intro i d hd
      have hmem : d ∈ M.methods := List.mem_of_getElem? hd
      have hblob : d.blob ∈ M.blobs := List.mem_append_right _ (List.mem_map_of_mem hmem)
      simp only [places, hd, Option.map_some, Option.getD_some]
      exact ⟨d.blob, d.written_blob,
        hasBlob_blobPlace hblobs hblob (List.cons_ne_nil _ _) (hM.method hmem).length_blob_lt⟩
    paramName := by
      intro i p hp
      have hmem : p.1.name ∈ M.names :=
        mem_names_iff.mpr (.inr (.inr (.inr (.inr (.inr ⟨p, List.mem_of_getElem? hp, rfl⟩)))))
      simp only [places, hp, Option.map_some, Option.getD_some]
      exact hstring p.1.name hmem }

/-- **Loading a serialised module gives the module back.** Every module that fits the format is
loaded from its serialised form, as long as that has less than `2 ^ 32` bytes, and so it is from
every other form that has its names and signatures wherever the rows say, with places of any width
that they fit and signatures in any of their written forms. Loading succeeds with nothing to report
and lists the declared types in order: each with its name, its full name and the token of its row,
with all of its fields, and with all of its methods but the constructors, which are never listed;
and so the names, the types and the attributes of the members are those that were declared.

**Proof sketch.** The root and the streams are read back (`MetadataRoot.stream?_metadataBytes`), so
the module is opened with the heaps and the tables that were written (`exists_ofMetadata_eq_ok`).
In it, each row is found at its number and each name at its place (`storedIn_indexed`). The runs of
members follow one another in the order of their owners, so that every type is resolved with its
own (`MetadataModule.resolveType_stored`). -/
theorem load_metadata (M : ModuleDecl) (hM : M.Fits) (find? : Option (String → Option String)) :
    (M.metadata.size < 2 ^ 32 → ∃ log, loadMetadata M.metadata find? = .ok (M.loaded, log)) ∧
    ∀ places heaps, M.PlacedIn places heaps → (M.metadataIn places heaps).size < 2 ^ 32 →
      ∃ log, loadMetadata (M.metadataIn places heaps) find? = .ok (M.loaded, log) :=
  ⟨fun hsize => exists_loadMetadata_eq_ok hM (placedIn_heaps hM hsize) hsize find?,
    fun _ _ hplaced hsize => exists_loadMetadata_eq_ok hM hplaced hsize find?⟩

/-- A module with a type that has members, one of them a constructor, and a type without a
namespace. -/
def game : ModuleDecl where
  name := "Game.dll"
  types := [
    { typeNamespace := "Game", name := "Player", flags := 0x00100001
      fields := [⟨"health", 0x0001, .primitive .i4⟩, ⟨"rivals", 0x0036, .vector (.classType 0)⟩]
      methods := [⟨".ctor", 0x1886, .primitive .void, []⟩,
        ⟨"Move", 0x0096, .valueType 1,
          [⟨"speed", 0x0000, .primitive .r4⟩, ⟨"hit", 0x0002, .pointer (.valueType 1)⟩]⟩,
        ⟨"Rest", 0x0064, .primitive .boolean, []⟩] },
    { typeNamespace := "", name := "Point", flags := 0x00000101
      fields := [⟨"x", 0x0006, .primitive .r8⟩, ⟨"axes", 0x0053, .primitive .i4⟩]
      methods := [] }]

/-- A module by the general law, serialised and with wide places, and what its types and their
members have: names and tokens, and what their attributes say. -/
theorem load_metadata_game :
    game.Fits ∧ game.metadata.size < 2 ^ 32 ∧
      (∃ log, loadMetadata game.metadata none = .ok (⟨"Game", game.infos, []⟩, log)) ∧
      game.PlacedIn game.places game.heaps.widened ∧
      (∃ log, loadMetadata (game.metadataIn game.places game.heaps.widened) none =
        .ok (⟨"Game", game.infos, []⟩, log)) ∧
      game.infos.map (fun t => (t.fullName, t.token.value)) =
        [("Game.Player", 0x02000001), ("Point", 0x02000002)] ∧
      (game.infos.flatMap TypeInfo.fields).map (fun f => (f.name, f.token.value)) =
        [("health", 0x04000001), ("rivals", 0x04000002), ("x", 0x04000003),
          ("axes", 0x04000004)] ∧
      (game.infos.flatMap TypeInfo.fields).map
          (fun f => (f.access, f.isStatic, f.isReadOnly, f.isConstant)) =
        [(.declaringType, false, false, false), (.all, true, true, false),
          (.all, false, false, false), (.assembly, true, false, true)] ∧
      (game.infos.flatMap TypeInfo.methods).map (fun d => (d.name, d.token.value)) =
        [("Move", 0x06000002), ("Rest", 0x06000003)] ∧
      (game.infos.flatMap TypeInfo.methods).map (fun d => (d.access, d.isStatic, d.inheritance)) =
        [(.all, true, .unmarked), (.family, false, .overriding)] ∧
      (game.infos.flatMap TypeInfo.methods).map
          (fun d => d.parameters.map fun p => (p.name, p.isOut, p.isOptional)) =
        [[("speed", false, false), ("hit", true, false)], []] := by
  have hfits : game.Fits := by
    constructor <;> decide +kernel
  have hsize : game.metadata.size < 2 ^ 32 := by decide +kernel
  have hwideSize : (game.metadataIn game.places game.heaps.widened).size < 2 ^ 32 := by
    decide +kernel
  have hplaced : game.PlacedIn game.places game.heaps.widened :=
    (placedIn_heaps hfits hsize).widened
  have hname : game.loadedName = "Game" := by decide +kernel
  have hload := load_metadata game hfits none
  rw [loaded, hname] at hload
  refine ⟨hfits, hsize, hload.1 hsize, hplaced, hload.2 _ _ hplaced hwideSize, ?_, ?_, ?_, ?_, ?_,
    ?_⟩ <;>
    decide +kernel

end ModuleDecl

end TypeInventory
