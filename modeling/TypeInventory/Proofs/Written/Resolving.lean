import TypeInventory.Proofs.Module.Parameters
import TypeInventory.Proofs.Signature.Tails
import TypeInventory.Proofs.Written.Declarations

set_option relaxedAutoImplicit false
set_option autoImplicit false

/-!
# Resolving stored declarations

When the rows of a module are those of some declarations, and its heaps give their names and
signatures, its types are resolved to what was declared: every type with its own fields and methods,
every method with its own parameters, in order and without a warning.

## Main definitions

* `ModuleDecl.StoredIn` — a module with the rows, the names and the signatures of declarations.
* `MetadataModule.declaredOutcomes` — what becomes of the types that are declared.

## Main results

* `MetadataModule.signatureNameWithin_signature` — the type of a member is shown as declared.
* `MetadataModule.resolveField_stored`, `MetadataModule.resolveMethod_stored` — members.
* `MetadataModule.resolveType_stored`, `MetadataModule.outcomes_stored` — types.
-/

namespace TypeInventory

/-! ## Lists and tables -/

/-- A result without warnings is handed on. -/
lemma Resolution.liftM_ok_bind {α β : Type} (a : α) (f : α → Resolution β) :
    ((liftM (Except.ok a : Except Fault α) : Resolution α) >>= f) = f a :=
  rfl

/-- A value is handed on. -/
lemma Resolution.pure_bind {α β : Type} (a : α) (f : α → Resolution β) : (pure a >>= f) = f a :=
  rfl

/-- Numbered members are resolved one by one. -/
lemma Resolution.forEach_range' {α β : Type} {f : ℕ → Resolution β} {g : α × ℕ → β} {as : List α} :
    ∀ start, (∀ k a, as[k]? = some a → f (start + k) = pure (g (a, start + k))) →
      forEach f (List.range' start as.length) = pure ((as.zipIdx start).map g) := by
  induction as with
  | nil => exact fun _ _ => rfl
  | cons a as ih =>
    intro start h
    have hhead : f start = pure (g (a, start)) := h 0 a rfl
    have htail := ih (start + 1) fun k b hb => by
      rw [Nat.add_assoc, Nat.add_comm 1 k]
      exact h (k + 1) b hb
    rw [List.length_cons, List.range'_succ, forEach_cons, hhead, htail]
    rfl

/-- Results of numbered members, one by one. -/
lemma mapM_zipIdx_map_eq_ok {α β γ : Type} {f : β × ℕ → Except Fault γ} {c : α → β} {g : α → γ}
    {as : List α} :
    ∀ start, (∀ k a, as[k]? = some a → f (c a, start + k) = .ok (g a)) →
      ((as.map c).zipIdx start).mapM f = .ok (as.map g) := by
  induction as with
  | nil => exact fun _ _ => rfl
  | cons a as ih =>
    intro start h
    have hhead : f (c a, start) = .ok (g a) := h 0 a rfl
    have htail := ih (start + 1) fun k b hb => by
      rw [Nat.add_assoc, Nat.add_comm 1 k]
      exact h (k + 1) b hb
    rw [List.map_cons, List.zipIdx_cons, List.mapM_cons, hhead, htail]
    rfl

/-- A table that gives some rows one by one has these rows. -/
lemma Table.rows_eq_of_get? {kind : RowKind} {t : Table kind.Row} {rows : List kind.Row}
    (hcount : t.rowCount = rows.length) (h : ∀ i, t.get? (i + 1) = rows[i]?) : t.rows = rows := by
  have hlength : t.rows.length = rows.length := by
    refine Nat.le_antisymm (hcount ▸ t.rows_eq_first.1) ?_
    refine (t.le_length_rows_iff (Nat.le_of_eq hcount.symm)).mpr fun rid hone hle => ?_
    obtain ⟨i, rfl⟩ : ∃ i, rid = i + 1 := ⟨rid - 1, by omega⟩
    rw [h i, List.getElem?_eq_getElem hle]
    rfl
  refine List.ext_getElem hlength fun i hi hi' => ?_
  have hget := t.get?_succ_of_lt_length hi
  rw [h i, List.getElem?_eq_getElem hi'] at hget
  exact (Option.some.inj hget).symm

/-! ## Runs -/

/-- The run of an owner among members that lie one behind the other in the order of their owners:
those of the owner, without a warning. -/
lemma ModuleTables.memberRun_memberStart {α β : Type} {m : ModuleTables} {list : MemberList}
    {members : α → List β} {owners : List α} {i : ℕ} {owner : α} {next? : Option ℕ}
    (token : Token) (hcount : m.memberCount list = (owners.flatMap members).length)
    (hplain : ∀ place, m.memberAt? list place = some place) (howner : owners[i]? = some owner)
    (hnext : next? = owners[i + 1]?.map fun _ => memberStart members owners (i + 1)) :
    m.memberRun list token (memberStart members owners i) next? =
      pure (List.range' (memberStart members owners i) (members owner).length) := by
  have hsucc := memberStart_succ members howner
  have hstop : next?.getD (m.memberCount list + 1) = memberStart members owners (i + 1) := by
    rw [hnext]
    cases hlast : owners[i + 1]? with
    | some _ => rfl
    | none =>
      have hlength : i + 1 = owners.length := by
        have hlt := (List.getElem?_eq_some_iff.mp howner).1
        have hge := List.getElem?_eq_none_iff.mp hlast
        omega
      rw [hlength, memberStart_length, hcount]
      rfl
  have hfits : RunFits (m.memberCount list) (memberStart members owners i)
      (memberStart members owners (i + 1)) := by
    refine ⟨Nat.le_add_right 1 _, by omega, ?_⟩
    rw [hcount]
    exact memberStart_le members owners (i + 1)
  rw [memberRun_of_fits hstop hfits, coveredPlaces_of_fits hfits, hsucc, Nat.add_sub_cancel_left,
    funext hplain, List.filterMap_some]

/-! ## Signatures -/

/-- The signature of a field is read back from each of its written forms. -/
lemma TypeSig.ofFieldBlob_signature {t : MemberType} {bytes : List UInt8}
    (hbytes : t.signature.Written bytes) (hnesting : t.signature.nesting < nestingLimit) :
    TypeSig.ofFieldBlob ⟨(fieldMark :: bytes).toArray⟩ = .ok t.signature := by
  have hanswers : SignatureReader.field.Answers 0 (SignatureReader.levelsAt 0)
      SignatureReader.Anything t.signature.nesting (fieldMark :: bytes) t.signature :=
    SignatureReader.answers_field t.storable_signature hbytes
  rw [← List.append_nil (fieldMark :: bytes)]
  exact hanswers.runOn_eq_ok hnesting trivial

/-- The signature of a method is read back from each of its written forms. -/
lemma MethodSig.ofBlob_signature {types : List TypeDecl} {d : MethodDecl} {bytes : List UInt8}
    (hbytes : d.signature.Written bytes) (h : d.Fits types) :
    MethodSig.ofBlob ⟨bytes.toArray⟩ = .ok d.signature := by
  have hstorable := d.storable_signature (Nat.lt_trans h.paramCount (by decide))
  have hanswers : SignatureReader.method.Answers 0 (SignatureReader.levelsAt 0)
      SignatureReader.Anything d.signature.nesting bytes d.signature :=
    SignatureReader.answers_method hstorable hbytes
  rw [← List.append_nil bytes]
  exact hanswers.runOn_eq_ok h.nesting_signature trivial

/-! ## Stored declarations -/

/-- A module in which declarations are stored: it has their rows and no others, and its heaps give
their names and their signatures at the places that the rows say. -/
structure ModuleDecl.StoredIn (M : ModuleDecl) (places : Placement) (m : MetadataModule) :
    Prop where
  typeCount : m.typeDefs.rowCount = M.types.length
  memberCount_field : m.memberCount .field = M.fields.length
  memberCount_method : m.memberCount .method = M.methods.length
  memberCount_param : m.memberCount .param = M.params.length
  memberAt? : ∀ list place, m.memberAt? list place = some place
  typeDef : ∀ i, m.typeDefs.get? (i + 1) = M.types[i]?.map (places.typeDefRow M · i)
  field : ∀ i, m.fields.get? (i + 1) = M.fields[i]?.map (places.fieldRow · i)
  method : ∀ i, m.methods.get? (i + 1) = M.methods[i]?.map (places.methodRow M · i)
  param : ∀ i, m.params.get? (i + 1) = M.params[i]?.map (places.paramRow · i)
  typeName : ∀ i t, M.types[i]? = some t → m.strings.get (places.typeName i) = .ok t.name
  typeNamespace : ∀ i t, M.types[i]? = some t →
    m.strings.get (places.typeNamespace i) = .ok t.typeNamespace
  fieldName : ∀ i f, M.fields[i]? = some f → m.strings.get (places.fieldName i) = .ok f.name
  fieldSignature : ∀ i f, M.fields[i]? = some f → ∃ bytes, f.type.signature.Written bytes ∧
    m.blobs.get (places.fieldSignature i) = .ok ⟨(fieldMark :: bytes).toArray⟩
  methodName : ∀ i d, M.methods[i]? = some d → m.strings.get (places.methodName i) = .ok d.name
  methodSignature : ∀ i d, M.methods[i]? = some d → ∃ bytes, d.signature.Written bytes ∧
    m.blobs.get (places.methodSignature i) = .ok ⟨bytes.toArray⟩
  paramName : ∀ i p, M.params[i]? = some p → m.strings.get (places.paramName i) = .ok p.1.name
  enclosing : ∀ rid : ℕ, m.enclosing[rid]? = none
  typeGenerics : ∀ rid : ℕ, m.typeGenerics[rid]? = none
  methodGenerics : ∀ rid : ℕ, m.methodGenerics[rid]? = none
  isGenerated : ∀ token, m.isGenerated token = false

namespace MetadataModule

variable {M : ModuleDecl} {places : Placement} {m : MetadataModule}

/-! ## Names -/

/-- Namespace and name of a type are those that were declared. -/
lemma typeDefNames_stored (h : M.StoredIn places m) {i : ℕ} {t : TypeDecl}
    (ht : M.types[i]? = some t) : m.typeDefNames (i + 1) = .ok (t.typeNamespace, t.name) := by
  have hrow : m.typeDefs.get? (i + 1) = some (places.typeDefRow M t i) := by
    rw [h.typeDef, ht]
    rfl
  rw [ModuleTables.typeDefNames, hrow]
  simp only [Placement.typeDefRow, h.typeName i t ht, h.typeNamespace i t ht]
  rfl

/-- The full name of a type is its name behind its namespace. -/
lemma fullName_stored (h : M.StoredIn places m) {i : ℕ} {t : TypeDecl}
    (ht : M.types[i]? = some t) :
    m.fullName (i + 1) = .ok t.fullName := by
  have hparts : m.nameParts nestingLimit (i + 1) [] = .ok [t.fullName] := by
    rw [nestingLimit, nameParts, typeDefNames_stored h ht, TypeDecl.fullName,
      ← qualifiedName_eq_ite]
    simp only [h.enclosing]
    rfl
  rw [fullName, hparts]
  rfl

/-- A type of the module is shown by its name. -/
lemma tokenNameWithin_stored (h : M.StoredIn places m) (scope : GenericScope) {levels i : ℕ}
    {t : TypeDecl} (ht : M.types[i]? = some t) (hcount : M.types.length < 2 ^ 24)
    (hkeyword : hasKeyword t.typeNamespace t.name = false) :
    m.tokenNameWithin scope (levels + 1) (TableId.typeDef.token (i + 1)) = .ok (.plain t.name) := by
  have hlt := (List.getElem?_eq_some_iff.mp ht).1
  have htable : (TableId.typeDef.token (i + 1)).table = TableId.typeDef.number := by
    rw [TableId.token, Token.table_ofParts]
    rfl
  have hrid : (TableId.typeDef.token (i + 1)).row = i + 1 := by
    rw [TableId.token, Token.row_ofParts]
    exact Nat.mod_eq_of_lt (by omega)
  have hrow : m.typeDefs.get? (i + 1) = some (places.typeDefRow M t i) := by
    rw [h.typeDef, ht]
    rfl
  rw [tokenNameWithin, if_pos htable, hrid, hrow]
  simp only [Placement.typeDefRow, h.typeName i t ht, h.typeNamespace i t ht, h.enclosing,
    h.typeGenerics]
  change (if hasKeyword t.typeNamespace t.name = true then _ else _) = _
  rw [hkeyword]
  rfl

/-- **The type of a member is shown as it was declared**, with as many levels as it has and one
more.

**Proof sketch.** By induction on the type. A token takes the level that is left behind a type. -/
lemma signatureNameWithin_signature (h : M.StoredIn places m) (hcount : M.types.length < 2 ^ 24)
    (scope : GenericScope) {type : MemberType} (hnamed : type.isNamed M.types = true) :
    ∀ levels, type.signature.nesting < levels →
      m.signatureNameWithin scope levels type.signature = .ok (type.shown M.types) := by
  have htoken : ∀ index levels, (M.types[index]?.any fun t => !hasKeyword t.typeNamespace t.name) →
      m.tokenNameWithin scope (levels + 1) (TableId.typeDef.token (index + 1)) =
        .ok (.plain ((M.types[index]?.map TypeDecl.name).getD "")) := by
    intro index levels hany
    cases ht : M.types[index]? with
    | none =>
      rw [ht] at hany
      cases hany
    | some t =>
      rw [ht, Option.any_some, Bool.not_eq_true'] at hany
      exact tokenNameWithin_stored h scope ht hcount hany
  induction type with
  | primitive p =>
    rintro (_ | levels) hlevels
    · cases hlevels
    · rfl
  | vector element ih =>
    rintro (_ | levels) hlevels
    · cases hlevels
    · have hinner := ih hnamed levels (Nat.lt_of_succ_lt_succ hlevels)
      rw [MemberType.signature, signatureNameWithin, hinner]
      rfl
  | pointer target ih =>
    rintro (_ | levels) hlevels
    · cases hlevels
    · have hinner := ih hnamed levels (Nat.lt_of_succ_lt_succ hlevels)
      rw [MemberType.signature, signatureNameWithin, hinner]
      rfl
  | classType index =>
    rintro (_ | _ | levels) hlevels
    · cases hlevels
    · cases Nat.lt_of_succ_lt_succ hlevels
    · exact htoken index levels hnamed
  | valueType index =>
    rintro (_ | _ | levels) hlevels
    · cases hlevels
    · cases Nat.lt_of_succ_lt_succ hlevels
    · exact htoken index levels hnamed

/-! ## Fields -/

/-- **A field is resolved to what was declared.** -/
lemma resolveField_stored (h : M.StoredIn places m) (hM : M.Fits) (typeParameters : List String)
    {i : ℕ} {f : FieldDecl} (hf : M.fields[i]? = some f) :
    m.resolveField typeParameters (i + 1) = .ok (f.info M.types (i + 1)) := by
  have hlt := (List.getElem?_eq_some_iff.mp hf).1
  have hfits := hM.field (List.mem_of_getElem? hf)
  have hrow : m.fields.get? (i + 1) = some (places.fieldRow f i) := by
    rw [h.field, hf]
    rfl
  obtain ⟨bytes, hbytes, hblob⟩ := h.fieldSignature i f hf
  have hsig := TypeSig.ofFieldBlob_signature hbytes hfits.type.nesting
  have htype : m.signatureName { typeParameters } f.type.signature = .ok (f.type.shown M.types) :=
    signatureNameWithin_signature h hM.typeCount _ hfits.type.named _ hfits.type.nesting
  have htoken : (places.fieldRow f i).token = TableId.field.tokenOfRow (i + 1) :=
    TableId.field.token_eq_tokenOfRow (Nat.lt_of_le_of_lt hlt hM.fieldCount)
  rw [resolveField, hrow]
  simp only [h.isGenerated, htoken]
  simp only [Placement.fieldRow, h.fieldName i f hf, hblob]
  simp only [bind, Except.bind, hsig, htype]
  rfl

/-! ## Methods -/

/-- Parameters that lie in the order of their positions are found by them. -/
lemma getElem?_paramsByPosition_range' {start n : ℕ}
    (h : ∀ k < n, ∃ row, m.params.get? (start + k) = some row ∧ row.sequence = k + 1) {k : ℕ}
    (hk : k < n) :
    (m.paramsByPosition (List.range' start n))[k + 1]? = m.params.get? (start + k) := by
  obtain ⟨row, hrow, hsequence⟩ := h k hk
  have hmem : row ∈ (List.range' start n).filterMap m.params.get? :=
    List.mem_filterMap.mpr ⟨start + k, List.mem_range'_1.mpr ⟨by omega, by omega⟩, hrow⟩
  obtain ⟨last, hlast⟩ := exists_lastAbout? hmem hsequence
  obtain ⟨hlastMem, hlastSequence⟩ := mem_of_lastAbout? hlast
  obtain ⟨place, hplace, hget⟩ := List.mem_filterMap.mp hlastMem
  rw [List.mem_range'_1] at hplace
  obtain ⟨j, rfl⟩ : ∃ j, place = start + j := ⟨place - start, by omega⟩
  -- The last row about the position is the one that lies there.
  obtain ⟨row', hrow', hsequence'⟩ := h j (by omega)
  obtain rfl : row' = last := Option.some.inj (hrow'.symm.trans hget)
  obtain rfl : j = k := by omega
  rw [getElem?_paramsByPosition, hlast, hget]

/-- A parameter is resolved to what was declared, if the row about its position is its own. -/
lemma resolveParam_stored (h : M.StoredIn places m) (hM : M.Fits) (scope : GenericScope)
    {rows : Std.TreeMap ℕ ParamRow} {i position : ℕ} {p : ParamDecl}
    (hp : M.params[i]? = some (p, position))
    (hrow : rows[position]? = some (places.paramRow (p, position) i)) :
    m.resolveParam scope rows ⟨false, p.type.signature⟩ position = .ok (p.info M.types) := by
  have hfits := (hM.param (List.mem_of_getElem? hp)).1
  have htype : m.signatureName scope p.type.signature = .ok (p.type.shown M.types) :=
    signatureNameWithin_signature h hM.typeCount _ hfits.type.named _ hfits.type.nesting
  rw [resolveParam, paramName, htype, hrow]
  simp only [Placement.paramRow, h.paramName i _ hp]
  rfl

/-- The parameters of a method are resolved to what was declared. -/
lemma mapM_resolveParam_stored (h : M.StoredIn places m) (hM : M.Fits) (scope : GenericScope)
    {i : ℕ} {d : MethodDecl} (hd : M.methods[i]? = some d) :
    (d.signature.params.zipIdx 1).mapM (fun x => m.resolveParam scope
        (m.paramsByPosition (List.range' (M.paramStart i) d.params.length)) x.1 x.2) =
      .ok (d.params.map (ParamDecl.info M.types)) := by
  have hmember : ∀ k p, d.params[k]? = some p → ∃ j, M.params[j]? = some (p, k + 1) ∧
      m.params.get? (M.paramStart i + k) = some (places.paramRow (p, k + 1) j) := by
    intro k p hp
    have hnumbered : (d.params.zipIdx 1)[k]? = some (p, k + 1) := by
      rw [List.getElem?_zipIdx, hp, Nat.add_comm 1 k]
      rfl
    obtain ⟨j, hj, hparam⟩ :=
      exists_memberStart_add (fun d : MethodDecl => d.params.zipIdx 1) hd hnumbered
    refine ⟨j, hparam, ?_⟩
    rw [ModuleDecl.paramStart, hj, h.param, ModuleDecl.params, hparam]
    rfl
  refine mapM_zipIdx_map_eq_ok 1 fun k p hp => ?_
  have hk := (List.getElem?_eq_some_iff.mp hp).1
  obtain ⟨j, hparam, hrow⟩ := hmember k p hp
  rw [Nat.add_comm 1 k]
  refine resolveParam_stored h hM scope hparam ?_
  rw [← hrow]
  refine getElem?_paramsByPosition_range' (fun k' hk' => ?_) hk
  obtain ⟨j', -, hrow'⟩ := hmember k' _ (List.getElem?_eq_getElem hk')
  exact ⟨_, hrow', rfl⟩

/-- **A method is resolved to what was declared**, without a warning; a constructor is not
listed. -/
lemma resolveMethod_stored (h : M.StoredIn places m) (hM : M.Fits) (typeParameters : List String)
    {i : ℕ} {d : MethodDecl} (hd : M.methods[i]? = some d) :
    m.resolveMethod typeParameters (i + 1) = pure (d.info? M.types (i + 1)) := by
  have hlt := (List.getElem?_eq_some_iff.mp hd).1
  have hfits := hM.method (List.mem_of_getElem? hd)
  have hrow : m.methods.get? (i + 1) = some (places.methodRow M d i) := by
    rw [h.method, hd]
    rfl
  obtain ⟨bytes, hbytes, hblob⟩ := h.methodSignature i d hd
  have hsig := MethodSig.ofBlob_signature hbytes hfits
  have hreturns : ∀ scope,
      m.paramName scope d.signature.returns = .ok (d.returns.shown M.types) := by
    intro scope
    have htype : m.signatureName scope d.returns.signature = .ok (d.returns.shown M.types) :=
      signatureNameWithin_signature h hM.typeCount _ hfits.returns.named _ hfits.returns.nesting
    rw [paramName, MethodDecl.signature, htype]
    rfl
  have hnext : (m.methods.get? (i + 1 + 1)).map MethodDefRow.paramList =
      M.methods[i + 1]?.map fun _ => M.paramStart (i + 1) := by
    rw [h.method, Option.map_map]
    rfl
  have hrun : m.memberRun .param (places.methodRow M d i).token (M.paramStart i)
      ((m.methods.get? (i + 1 + 1)).map MethodDefRow.paramList) =
        (pure (List.range' (M.paramStart i) d.params.length) : Resolution (List ℕ)) := by
    have hmembers := ModuleTables.memberRun_memberStart (places.methodRow M d i).token
      h.memberCount_param (h.memberAt? .param) hd hnext
    rw [List.length_zipIdx] at hmembers
    exact hmembers
  have htoken : (places.methodRow M d i).token = TableId.methodDef.tokenOfRow (i + 1) :=
    TableId.methodDef.token_eq_tokenOfRow (Nat.lt_of_le_of_lt hlt hM.methodCount)
  rw [htoken] at hrun
  rw [resolveMethod, hrow]
  simp only [h.isGenerated, htoken, h.methodGenerics]
  simp only [Placement.methodRow, h.methodName i d hd, hblob, Resolution.liftM_ok_bind]
  rw [MethodDecl.info?]
  split_ifs with hconstructor
  · rfl
  · rw [hsig, Resolution.liftM_ok_bind, hreturns, Resolution.liftM_ok_bind, hrun,
      Resolution.pure_bind, mapM_resolveParam_stored h hM _ hd]
    rfl

/-! ## Types -/

/-- The fields of a type are resolved to what was declared. -/
lemma forEach_resolveField_stored (h : M.StoredIn places m) (hM : M.Fits)
    (typeParameters : List String) {i : ℕ} {t : TypeDecl} (ht : M.types[i]? = some t) :
    Resolution.forEach (fun rid => Resolution.ofExcept (m.resolveField typeParameters rid))
        (List.range' (M.fieldStart i) t.fields.length) =
      pure ((t.fields.zipIdx (M.fieldStart i)).map fun (f, row) => f.info M.types row) := by
  refine Resolution.forEach_range' (M.fieldStart i) fun k f hf => ?_
  obtain ⟨j, hj, hfield⟩ := exists_memberStart_add TypeDecl.fields ht hf
  rw [ModuleDecl.fieldStart, hj, resolveField_stored h hM typeParameters hfield]
  rfl

/-- The methods of a type are resolved to what was declared. -/
lemma forEach_resolveMethod_stored (h : M.StoredIn places m) (hM : M.Fits)
    (typeParameters : List String) {i : ℕ} {t : TypeDecl} (ht : M.types[i]? = some t) :
    Resolution.forEach (m.resolveMethod typeParameters)
        (List.range' (M.methodStart i) t.methods.length) =
      pure ((t.methods.zipIdx (M.methodStart i)).map fun (d, row) => d.info? M.types row) := by
  refine Resolution.forEach_range' (M.methodStart i) fun k d hd => ?_
  obtain ⟨j, hj, hmethod⟩ := exists_memberStart_add TypeDecl.methods ht hd
  rw [ModuleDecl.methodStart, hj, resolveMethod_stored h hM typeParameters hmethod]

/-- A type without the bit of interfaces and without a base is a reference type. -/
lemma typeKind_typeDefRow {t : TypeDecl} (hfits : t.Fits M.types) (i : ℕ) :
    m.typeKind (places.typeDefRow M t i) = .ok .referenceType := by
  have hbit : (places.typeDefRow M t i).flags.testBit interfaceBit = false := hfits.noInterface
  rw [typeKind, hbit]
  rfl

/-- **A type is resolved to what was declared**, without a warning. -/
lemma resolveType_stored (h : M.StoredIn places m) (hM : M.Fits) {i : ℕ} {t : TypeDecl}
    (ht : M.types[i]? = some t) :
    m.resolveType (places.typeDefRow M t i) = pure (some (M.typeInfo t i)) := by
  have hlt := (List.getElem?_eq_some_iff.mp ht).1
  have hfits := hM.types t (List.mem_of_getElem? ht)
  have htoken : (places.typeDefRow M t i).token = TableId.typeDef.tokenOfRow (i + 1) :=
    TableId.typeDef.token_eq_tokenOfRow (Nat.lt_of_le_of_lt hlt hM.typeCount)
  have hname : m.strings.get (places.typeDefRow M t i).typeName = .ok t.name := h.typeName i t ht
  have hfullName : m.fullName (places.typeDefRow M t i).rid = .ok t.fullName :=
    fullName_stored h ht
  have hfields : m.memberRun .field (places.typeDefRow M t i).token
      (places.typeDefRow M t i).fieldList
      ((m.typeDefs.get? ((places.typeDefRow M t i).rid + 1)).map TypeDefRow.fieldList) =
        pure (List.range' (M.fieldStart i) t.fields.length) := by
    refine ModuleTables.memberRun_memberStart _ h.memberCount_field (h.memberAt? .field) ht ?_
    rw [Placement.typeDefRow, h.typeDef, Option.map_map]
    rfl
  have hmethods : m.memberRun .method (places.typeDefRow M t i).token
      (places.typeDefRow M t i).methodList
      ((m.typeDefs.get? ((places.typeDefRow M t i).rid + 1)).map TypeDefRow.methodList) =
        pure (List.range' (M.methodStart i) t.methods.length) := by
    refine ModuleTables.memberRun_memberStart _ h.memberCount_method (h.memberAt? .method) ht ?_
    rw [Placement.typeDefRow, h.typeDef, Option.map_map]
    rfl
  rw [htoken] at hfields hmethods
  rw [resolveType, hname, Resolution.liftM_ok_bind, if_neg hfits.listed, hfullName,
    Resolution.liftM_ok_bind, typeKind_typeDefRow hfits, Resolution.liftM_ok_bind]
  simp only [htoken, hfields, hmethods, Resolution.pure_bind, h.isGenerated,
    forEach_resolveField_stored h hM _ ht, forEach_resolveMethod_stored h hM _ ht,
    List.filterMap_map]
  rfl

/-- What becomes of the types that are declared: each of them is resolved, without a warning. -/
def declaredOutcomes (M : ModuleDecl) (places : Placement) : List TypeOutcome :=
  M.types.mapIdx fun i t => ⟨places.typeDefRow M t i, pure (some (M.typeInfo t i))⟩

/-- **All types are resolved to what was declared.** -/
lemma outcomes_stored (h : M.StoredIn places m) (hM : M.Fits) :
    m.outcomes = declaredOutcomes M places := by
  have hget : ∀ i, m.typeDefs.get? (i + 1) =
      (M.types.mapIdx fun i t => places.typeDefRow M t i)[i]? := by
    intro i
    rw [List.getElem?_mapIdx]
    exact h.typeDef i
  have hrows : m.typeDefs.rows = M.types.mapIdx fun i t => places.typeDefRow M t i :=
    @Table.rows_eq_of_get? .typeDef m.typeDefs _ (h.typeCount.trans List.length_mapIdx.symm) hget
  refine List.ext_getElem? fun i => ?_
  rw [outcomes, hrows, declaredOutcomes, List.getElem?_map, List.getElem?_mapIdx,
    List.getElem?_mapIdx]
  cases ht : M.types[i]? with
  | none => rfl
  | some t =>
    simp only [Option.map_some]
    rw [resolveType_stored h hM ht]

/-- The types that are declared are listed. -/
lemma filterMap_type?_declaredOutcomes (M : ModuleDecl) (places : Placement) :
    (declaredOutcomes M places).filterMap TypeOutcome.type? = M.infos := by
  rw [declaredOutcomes, List.mapIdx_eq_zipIdx_map, List.filterMap_map, ModuleDecl.infos,
    List.mapIdx_eq_zipIdx_map, ← List.filterMap_eq_map]
  rfl

/-- There is no warning about them. -/
lemma flatMap_warnings_declaredOutcomes (M : ModuleDecl) (places : Placement) :
    (declaredOutcomes M places).flatMap (fun o => o.resolution.warnings) = [] := by
  rw [List.flatMap_eq_nil_iff]
  intro o ho
  obtain ⟨i, hi, rfl⟩ := List.mem_mapIdx.mp ho
  rfl

/-- There is no error about them. -/
lemma filterMap_failure?_declaredOutcomes (M : ModuleDecl) (places : Placement) :
    (declaredOutcomes M places).filterMap TypeOutcome.failure? = [] := by
  rw [List.filterMap_eq_nil_iff]
  intro o ho
  obtain ⟨i, hi, rfl⟩ := List.mem_mapIdx.mp ho
  rfl

end MetadataModule

end TypeInventory
