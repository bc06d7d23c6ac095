import TypeInventory.Proofs.Written.Resolving
import TypeInventory.Proofs.Written.Rows

set_option relaxedAutoImplicit false
set_option autoImplicit false

/-!
# Loading what was written

Declarations are written as metadata: tables, names and signatures, each in a stream of its own,
behind a root. Loading these metadata gives the declarations back, wherever the names and the
signatures lie in their heaps.

## Main definitions

* `Heaps.metadataWith` — the metadata of given tables and heaps.
* `ModuleDecl.metadataIn` — the metadata of declarations with given heaps.

## Main results

* `Heaps.exists_ofMetadata_eq_ok` — written metadata are opened.
* `ModuleDecl.storedIn_indexed` — the declarations are stored in the opened module.
* `ModuleDecl.exists_loadMetadata_eq_ok` — loading written metadata gives the declarations.
-/

namespace TypeInventory

/-! ## Opening -/

/-- A module is opened from its streams. -/
lemma OpenModule.ofMetadata_of_streams {metadata strings blobs tables : ByteArray}
    {root : MetadataRoot} {s : TableStream} (hroot : MetadataRoot.ofBytes metadata = .ok root)
    (htables : root.stream? metadata "#~" = some tables)
    (hstrings : root.stream? metadata "#Strings" = some strings)
    (hblobs : root.stream? metadata "#Blob" = some blobs)
    (hstringsZero : startsWithZero strings = true) (hblobsZero : startsWithZero blobs = true)
    (hs : TableStream.ofBytes tables = .ok s) :
    ofMetadata metadata = .ok ⟨root, ⟨strings⟩, ⟨blobs⟩, s⟩ := by
  have hstringHeap : StringHeap.ofBytes strings = .ok ⟨strings⟩ := if_pos hstringsZero
  have hblobHeap : BlobHeap.ofBytes blobs = .ok ⟨blobs⟩ := if_pos hblobsZero
  rw [ofMetadata, hroot]
  simp only [bind, Except.bind, htables, hstrings, hblobs, Option.getD_some, hstringHeap, hblobHeap]
  change (TableStream.ofBytes tables >>= fun tables =>
    pure (⟨root, ⟨strings⟩, ⟨blobs⟩, tables⟩ : OpenModule)) = _
  rw [hs]
  rfl

/-- A heap that starts with the empty entry still does when it is filled up. -/
lemma startsWithZero_paddedBytes {bytes : List UInt8} (h : bytes.head? = some 0) :
    startsWithZero ⟨(paddedBytes bytes).toArray⟩ = true := by
  cases bytes with
  | nil => cases h
  | cons b bytes =>
    cases h
    rfl

/-- The module that is opened from given heaps, tables and a root. -/
def Heaps.opened (heaps : Heaps) (root : MetadataRoot) (s : TableStream) : OpenModule where
  root := root
  strings := ⟨⟨(paddedBytes heaps.strings).toArray⟩⟩
  blobs := ⟨⟨(paddedBytes heaps.blobs).toArray⟩⟩
  tables := s

/-! ## Metadata -/

/-- The version of the runtime that metadata are written for. -/
def runtimeVersion : List UInt8 :=
  paddedBytes (stringEntry "v4.0.30319")

/-- The streams of given tables and heaps. -/
def Heaps.streamsWith (heaps : Heaps) (source : TableSource) : List (String × List UInt8) :=
  [("#~", paddedBytes source.bytes), ("#Strings", paddedBytes heaps.strings),
    ("#Blob", paddedBytes heaps.blobs)]

/-- The metadata of given tables and heaps. -/
def Heaps.metadataWith (heaps : Heaps) (source : TableSource) : ByteArray :=
  ⟨(metadataBytes runtimeVersion (heaps.streamsWith source)).toArray⟩

section Written

variable {heaps : Heaps} {source : TableSource}

/-- The names of the streams can be written. -/
lemma isStreamName_of_mem_streamsWith {stream : String × List UInt8}
    (h : stream ∈ heaps.streamsWith source) : IsStreamName stream.1 := by
  have htables : IsStreamName "#~" := ⟨by decide, by decide, by decide⟩
  have hstrings : IsStreamName "#Strings" := ⟨by decide, by decide, by decide⟩
  have hblobs : IsStreamName "#Blob" := ⟨by decide, by decide, by decide⟩
  simp only [Heaps.streamsWith, List.mem_cons, List.not_mem_nil, or_false] at h
  rcases h with rfl | rfl | rfl
  · exact htables
  · exact hstrings
  · exact hblobs

/-- Written metadata are 80 bytes of headers, and the streams. -/
lemma Heaps.size_metadataWith (heaps : Heaps) (source : TableSource) :
    (heaps.metadataWith source).size =
      80 + ((source.bytes.length + 3) / 4 * 4 +
        ((heaps.strings.length + 3) / 4 * 4 + (heaps.blobs.length + 3) / 4 * 4)) := by
  have hsize : (heaps.metadataWith source).size =
      firstStream runtimeVersion (heaps.streamsWith source) +
        ((heaps.streamsWith source).flatMap Prod.snd).length :=
    length_metadataBytes runtimeVersion (heaps.streamsWith source)
  have hfirst : firstStream runtimeVersion (heaps.streamsWith source) = 80 := by
    rw [firstStream, length_rootBytes, streamsWith]
    simp only [streamHeadersBytes, List.length_append, length_streamHeaderBytes]
    decide
  rw [hsize, hfirst, streamsWith]
  simp only [List.flatMap_cons, List.flatMap_nil, List.length_append, length_paddedBytes,
    List.length_nil, Nat.add_zero]

/-- **Tables and heaps that can be written are opened** as they were written. -/
lemma Heaps.exists_ofMetadata_eq_ok (hfits : source.Fits)
    (hstringsZero : heaps.strings.head? = some 0) (hblobsZero : heaps.blobs.head? = some 0)
    (hsize : (heaps.metadataWith source).size < 2 ^ 32) :
    ∃ root s, s.Holds source ∧
      OpenModule.ofMetadata (heaps.metadataWith source) = .ok (heaps.opened root s) := by
  have hlength : (metadataBytes runtimeVersion (heaps.streamsWith source)).length < 2 ^ 32 := hsize
  have hcount : (heaps.streamsWith source).length = 3 := rfl
  obtain ⟨root, hroot, hstreams⟩ : ∃ root,
      MetadataRoot.ofBytes (heaps.metadataWith source) = .ok root ∧
      root.streams = streamHeaders (firstStream runtimeVersion (heaps.streamsWith source))
        (heaps.streamsWith source) :=
    ⟨_, MetadataRoot.ofBytes_metadataBytes hlength
      (fun _ hstream => isStreamName_of_mem_streamsWith hstream) (by omega) (by omega), rfl⟩
  have htables : root.stream? (heaps.metadataWith source) "#~" =
      some ⟨(paddedBytes source.bytes).toArray⟩ :=
    MetadataRoot.stream?_metadataBytes (List.nil_append _).symm hstreams fun _ hstream =>
      nomatch hstream
  have hstrings : root.stream? (heaps.metadataWith source) "#Strings" =
      some ⟨(paddedBytes heaps.strings).toArray⟩ := by
    refine MetadataRoot.stream?_metadataBytes (List.singleton_append).symm hstreams ?_
    simp
  have hblobs : root.stream? (heaps.metadataWith source) "#Blob" =
      some ⟨(paddedBytes heaps.blobs).toArray⟩ := by
    have hfront : heaps.streamsWith source =
        [("#~", paddedBytes source.bytes), ("#Strings", paddedBytes heaps.strings)] ++
          [("#Blob", paddedBytes heaps.blobs)] := rfl
    refine MetadataRoot.stream?_metadataBytes hfront hstreams ?_
    simp
  obtain ⟨s, hs, hholds⟩ := TableSource.exists_ofBytes_eq_ok hfits
    (show (⟨(paddedBytes source.bytes).toArray⟩ : ByteArray).data.toList = _ from rfl)
  exact ⟨root, s, hholds, OpenModule.ofMetadata_of_streams hroot htables hstrings hblobs
    (startsWithZero_paddedBytes hstringsZero) (startsWithZero_paddedBytes hblobsZero) hs⟩

end Written

namespace ModuleDecl

/-- The metadata of declarations with given heaps. -/
def metadataIn (M : ModuleDecl) (places : Placement) (heaps : Heaps) : ByteArray :=
  heaps.metadataWith (M.tableSource places heaps)

variable {M : ModuleDecl} {places : Placement} {heaps : Heaps}

/-- **Written declarations are opened**, with the heaps and the tables that were written. -/
lemma exists_ofMetadata_eq_ok (hM : M.Fits) (h : M.PlacedIn places heaps)
    (hsize : (M.metadataIn places heaps).size < 2 ^ 32) :
    ∃ root s, s.Holds (M.tableSource places heaps) ∧
      OpenModule.ofMetadata (M.metadataIn places heaps) = .ok (heaps.opened root s) :=
  Heaps.exists_ofMetadata_eq_ok (fits_tableSource hM places heaps) h.strings_head h.blobs_head
    hsize

/-! ## What is stored -/

/-- An entry of a heap is still there when the heap is filled up. -/
lemma exists_drop_paddedBytes {bytes entry : List UInt8} {place : ℕ} (hne : entry ≠ [])
    (h : ∃ suffix, bytes.drop place = entry ++ suffix) :
    ∃ suffix, (paddedBytes bytes).drop place = entry ++ suffix := by
  obtain ⟨suffix, h⟩ := h
  have hlt : place < bytes.length := by
    by_contra hlt
    rw [List.drop_eq_nil_of_le (Nat.not_lt.mp hlt)] at h
    exact hne (List.append_eq_nil_iff.mp h.symm).1
  rw [paddedBytes, List.drop_append_of_le_length (Nat.le_of_lt hlt), h, List.append_assoc]
  exact ⟨_, rfl⟩

/-- A string is read back from the heap that was written. -/
lemma get_of_hasString {place : ℕ} {s : String} (hs : IsStorableName s)
    (h : heaps.HasString place s) :
    StringHeap.get ⟨⟨(paddedBytes heaps.strings).toArray⟩⟩ place = .ok s := by
  obtain ⟨suffix, hsuffix⟩ := exists_drop_paddedBytes (stringEntry_ne_nil s) h.entry
  exact StringHeap.get_of_entry hs hsuffix

/-- A blob is read back from the heap that was written. -/
lemma get_of_hasBlob {place : ℕ} {blob : List UInt8} (hne : blob ≠ [])
    (h : heaps.HasBlob place blob) :
    BlobHeap.get ⟨⟨(paddedBytes heaps.blobs).toArray⟩⟩ place = .ok ⟨blob.toArray⟩ := by
  obtain ⟨suffix, hsuffix⟩ := exists_drop_paddedBytes (blobEntry_ne_nil hne) h.entry
  exact BlobHeap.get_of_entry (Reader.compressedForm_compressedBytes h.length_lt) hsuffix

/-- The signature of a method is not empty. -/
lemma ne_nil_of_written {m : MethodSig} {bytes : List UInt8} (h : m.Written bytes) :
    bytes ≠ [] := by
  cases h with
  | intro hhead _ =>
    cases hhead
    exact List.cons_ne_nil _ _

/-- **The declarations are stored in the module that is opened.** -/
lemma storedIn_indexed (hM : M.Fits) (h : M.PlacedIn places heaps) {root : MetadataRoot}
    {s : TableStream} (hs : s.Holds (M.tableSource places heaps)) :
    M.StoredIn places (heaps.opened root s).indexed := by
  have hempty : ∀ kind : RowKind, (M.tableSource places heaps).rows kind.table = [] →
      (s.table kind.Row).rowCount = 0 := by
    intro kind hrows
    rw [hs.rowCount_eq, hrows]
    rfl
  have hfieldPtrs := hempty .fieldPtr rfl
  have hmethodPtrs := hempty .methodPtr rfl
  have hparamPtrs := hempty .paramPtr rfl
  exact {
    typeCount := (hs.rowCount_eq .typeDef).trans List.length_mapIdx
    memberCount_field :=
      (if_pos hfieldPtrs).trans ((hs.rowCount_eq .field).trans List.length_mapIdx)
    memberCount_method :=
      (if_pos hmethodPtrs).trans ((hs.rowCount_eq .methodDef).trans List.length_mapIdx)
    memberCount_param :=
      (if_pos hparamPtrs).trans ((hs.rowCount_eq .param).trans List.length_mapIdx)
    memberAt? := by
      intro list place
      cases list with
      | field => exact if_pos hfieldPtrs
      | method => exact if_pos hmethodPtrs
      | param => exact if_pos hparamPtrs
    typeDef := hs.get?_mapIdx .typeDef rfl fun i t ht => reads_typeDef h hM ht
    field := hs.get?_mapIdx .field rfl fun i f hf => reads_field h hf
    method := hs.get?_mapIdx .methodDef rfl fun i d hd => reads_method h hM hd
    param := hs.get?_mapIdx .param rfl fun i p hp => reads_param h hM hp
    typeName := fun i t ht =>
      get_of_hasString (hM.types t (List.mem_of_getElem? ht)).name (h.typeName i t ht)
    typeNamespace := fun i t ht =>
      get_of_hasString (hM.types t (List.mem_of_getElem? ht)).typeNamespace
        (h.typeNamespace i t ht)
    fieldName := fun i f hf =>
      get_of_hasString (hM.field (List.mem_of_getElem? hf)).name (h.fieldName i f hf)
    fieldSignature := by
      intro i f hf
      obtain ⟨bytes, hbytes, hblob⟩ := h.fieldSignature i f hf
      exact ⟨bytes, hbytes, get_of_hasBlob (List.cons_ne_nil _ _) hblob⟩
    methodName := fun i d hd =>
      get_of_hasString (hM.method (List.mem_of_getElem? hd)).name (h.methodName i d hd)
    methodSignature := by
      intro i d hd
      obtain ⟨bytes, hbytes, hblob⟩ := h.methodSignature i d hd
      exact ⟨bytes, hbytes, get_of_hasBlob (ne_nil_of_written hbytes) hblob⟩
    paramName := fun i p hp =>
      get_of_hasString (hM.param (List.mem_of_getElem? hp)).1.name (h.paramName i p hp)
    enclosing := by
      intro rid
      change (enclosingTypes (s.table RowKind.nestedClass.Row).rows)[rid]? = none
      rw [hs.rows_eq_nil .nestedClass rfl]
      rfl
    typeGenerics := by
      intro rid
      change (genericNames .typeDef
        (namedGenerics _ (s.table RowKind.genericParam.Row).rows).2)[rid]? = none
      rw [hs.rows_eq_nil .genericParam rfl]
      rfl
    methodGenerics := by
      intro rid
      change (genericNames .methodDef
        (namedGenerics _ (s.table RowKind.genericParam.Row).rows).2)[rid]? = none
      rw [hs.rows_eq_nil .genericParam rfl]
      rfl
    isGenerated := by
      intro token
      change (ModuleTables.generatedTokens _ _
        (s.table RowKind.customAttribute.Row).rows).contains token.value.toNat = false
      rw [hs.rows_eq_nil .customAttribute rfl]
      rfl }

/-! ## Loading -/

/-- The name of a loaded module: its own without the ending of names of modules. -/
def loadedName (M : ModuleDecl) : String :=
  (Text.beforeSuffix? M.name moduleEnding).getD M.name

/-- What a module is loaded to: its declarations, with nothing to report. -/
def loaded (M : ModuleDecl) : LoadedModule :=
  ⟨M.loadedName, M.infos, []⟩

section Opened

variable {root : MetadataRoot} {s : TableStream}

/-- The name of the module that is opened. -/
lemma name_opened (hM : M.Fits) (h : M.PlacedIn places heaps)
    (hs : s.Holds (M.tableSource places heaps)) : (heaps.opened root s).name = M.loadedName := by
  have hassembly : (s.table AssemblyRow).get? 1 = none := by
    have hempty : (s.table RowKind.assembly.Row).rowCount = 0 := hs.rowCount_eq .assembly
    exact Table.get?_eq_none_of_outside (.inr (hempty ▸ Nat.one_pos))
  have hmodule : (s.table ModuleRow).get? 1 = some places.moduleRow :=
    hs.get?_eq_some .module (List.getElem?_cons_zero) (reads_module h)
  have hname : (heaps.opened root s).strings.get places.moduleRow.name = .ok M.name :=
    get_of_hasString hM.name h.moduleName
  rw [OpenModule.name, Heaps.opened, hassembly, hmodule]
  simp only [Option.bind_eq_bind, Option.bind_some]
  change (none <|> (((heaps.opened root s).strings.get places.moduleRow.name).toOption.bind _)).getD
    "" = _
  rw [hname]
  rfl

/-- The module that is opened refers to no other. -/
lemma references_opened (hs : s.Holds (M.tableSource places heaps)) :
    (heaps.opened root s).references = [] :=
  congrArg (List.map _) (hs.rows_eq_nil .assemblyRef rfl)

/-- No generic parameter of the module that is opened leaves a warning. -/
lemma warnings_opened (hs : s.Holds (M.tableSource places heaps)) (tables : ModuleTables) :
    (MetadataModule.ofTables tables s).1 = [] := by
  change (namedGenerics tables.strings (s.table RowKind.genericParam.Row).rows).1 = []
  rw [hs.rows_eq_nil .genericParam rfl]
  rfl

/-- The module that is opened is loaded to what was declared. -/
lemma load_opened (hM : M.Fits) (h : M.PlacedIn places heaps)
    (hs : s.Holds (M.tableSource places heaps)) (find? : Option (String → Option String)) :
    ((heaps.opened root s).load find?).1 = M.loaded := by
  have hreferences : (if find?.isSome then (heaps.opened root s).references else []) = [] := by
    rw [references_opened hs, ite_self]
  have hwarnings := warnings_opened hs
    (ModuleTables.ofStreams (heaps.opened root s).strings (heaps.opened root s).blobs s)
  have hstored : M.StoredIn places (heaps.opened root s).indexed := storedIn_indexed hM h hs
  have houtcomes := MetadataModule.outcomes_stored hstored hM
  change (⟨(heaps.opened root s).name,
    (heaps.opened root s).indexed.outcomes.filterMap TypeOutcome.type?,
    (if find?.isSome then (heaps.opened root s).references else []).filterMap
        AssemblyReference.diagnostic? ++
      (MetadataModule.ofTables (ModuleTables.ofStreams (heaps.opened root s).strings
        (heaps.opened root s).blobs s) s).1 ++
      (heaps.opened root s).indexed.outcomes.flatMap (fun o => o.resolution.warnings) ++
      (heaps.opened root s).indexed.outcomes.filterMap TypeOutcome.failure?⟩ : LoadedModule) = _
  rw [name_opened hM h hs, hreferences, hwarnings, houtcomes,
    MetadataModule.filterMap_type?_declaredOutcomes,
    MetadataModule.flatMap_warnings_declaredOutcomes,
    MetadataModule.filterMap_failure?_declaredOutcomes]
  rfl

end Opened

/-- **Loading metadata of declarations gives them back.** -/
lemma exists_loadMetadata_eq_ok (hM : M.Fits) (h : M.PlacedIn places heaps)
    (hsize : (M.metadataIn places heaps).size < 2 ^ 32) (find? : Option (String → Option String)) :
    ∃ log, loadMetadata (M.metadataIn places heaps) find? = .ok (M.loaded, log) := by
  obtain ⟨root, s, hs, hopen⟩ := exists_ofMetadata_eq_ok hM h hsize
  refine ⟨((heaps.opened root s).load find?).2, ?_⟩
  rw [loadMetadata, hopen, ← load_opened hM h hs find?]
  rfl

end ModuleDecl

end TypeInventory
