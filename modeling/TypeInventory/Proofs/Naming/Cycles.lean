import TypeInventory.Proofs.Naming.Recursion

set_option relaxedAutoImplicit false
set_option autoImplicit false

/-!
# Names in modules with cycles

The tables of a module may lead naming in a circle: a constructed type may mention itself, directly
or through others, and types may enclose each other. Naming ends all the same, since it goes
`nestingLimit` levels deep at most, and for the same reason the names that it gives are not higher
than that. What lies on a circle has no name at all, and a type with a member that leads there is
not listed.

## Main definitions

* `TypeName.height` — the number of nodes on the longest path of a name.
* `TypeName.IsLow`, `TypeInfo.IsLow` — names of limited height, and types in which there are no
  others.
* `MetadataModule.UsesNode` — types with a member whose signature leads to a node.
* `OpenModule.IsAbsent` — a type definition of which nothing is listed.

## Main results

* `MetadataModule.height_nameWithin_le` — a name is not higher than the levels that it may take.
* `MetadataModule.nameWithin_ne_ok_of_cycle` — what leads back to itself has no name.
* `OpenModule.naming_ends` — naming ends, names are low, and circles are never named.
-/

namespace TypeInventory

open Checked

/-! ## Heights -/

namespace TypeName

mutual

/-- The number of nodes on the longest path of a name. -/
def height : TypeName → ℕ
  | .primitive _ => 1
  | .plain _ => 1
  | .array element => element.height + 1
  | .byRef element => element.height + 1
  | .nullable element => element.height + 1
  | .nested enclosing _ => enclosing.height + 1
  | .generic _ args => heightOfList args + 1

/-- The greatest height of names in a list. -/
def heightOfList : List TypeName → ℕ
  | [] => 0
  | name :: names => max name.height (heightOfList names)

end

/-- The names in a list are not higher than `n` when none of them is. -/
lemma heightOfList_le_iff {names : List TypeName} {n : ℕ} :
    heightOfList names ≤ n ↔ ∀ name ∈ names, name.height ≤ n := by
  induction names with
  | nil => simp [heightOfList]
  | cons name names ih => simp [heightOfList, ih]

/-- A generic type that stands for itself has two levels. -/
lemma height_generic_plain_le (base : String) (parameters : List String) :
    (generic base (parameters.map plain)).height ≤ 2 := by
  have h : heightOfList (parameters.map plain) ≤ 1 := by
    rw [heightOfList_le_iff]
    simp [height]
  rw [height]
  omega

/-- An instantiation is one node higher than its arguments. -/
lemma height_instantiationName_le {typeNamespace base : String} {args : List TypeName} {n : ℕ}
    (h : ∀ arg ∈ args, arg.height ≤ n) :
    (instantiationName typeNamespace base args).height ≤ n + 1 := by
  have hgeneric : (generic base args).height ≤ n + 1 := by
    have hlist := heightOfList_le_iff.mpr h
    rw [height]
    omega
  unfold instantiationName
  split
  · split_ifs
    · simpa [height] using h
    · exact hgeneric
  · exact hgeneric

end TypeName

/-- The level that the name of a node may take beyond the levels that it is given: a token may show
a generic type with its parameters at the last level. -/
def NameNode.extra : NameNode → ℕ
  | .signature _ => 0
  | .token _ => 1

/-- A step of a node with the given extra level raises names by one level at most. -/
def NameStep.IsGradual (extra : ℕ) : NameStep → Prop
  | done name => name.height ≤ extra + 1
  | form shape node =>
    ∀ (target : TypeName) (n : ℕ), target.height ≤ n + node.extra →
      (shape target).height ≤ n + extra + 1
  | instantiation _ _ args => ∀ arg ∈ args, arg.extra = 0

/-- What a gradual step makes of names is one level higher at most. -/
lemma NameStep.IsGradual.height_complete_le {extra n : ℕ} {step : NameStep}
    (hstep : step.IsGradual extra) {name : NameNode → Except Fault TypeName}
    (hname : ∀ x result, name x = .ok result → result.height ≤ n + x.extra) {result : TypeName}
    (h : step.complete name = .ok result) : result.height ≤ n + extra + 1 := by
  cases step with
  | done known =>
    cases h
    exact Nat.le_trans hstep (by omega)
  | form shape node =>
    obtain ⟨target, htarget, h⟩ := OpenModule.exists_of_bind_eq_ok h
    cases h
    exact hstep target n (hname node target htarget)
  | instantiation typeNamespace base args =>
    obtain ⟨names, hnames, h⟩ := OpenModule.exists_of_bind_eq_ok h
    cases h
    have hargs : ∀ arg ∈ names, arg.height ≤ n := by
      intro arg harg
      obtain ⟨x, hx, hxname⟩ := exists_of_map_eq (mapM_eq_ok_iff.mp hnames) harg
      have hheight := hname x arg hxname
      rwa [hstep x hx] at hheight
    have hheight : (instantiationName typeNamespace base names).height ≤ n + 1 :=
      TypeName.height_instantiationName_le hargs
    omega

namespace MetadataModule

variable {m : MetadataModule} {scope : GenericScope}

/-- A look at a token tells of at most two nodes, or of one around the name of another token, or it
leads to a signature. -/
lemma isGradual_of_lookAtToken {token : Token} {step : NameStep}
    (h : m.lookAtToken token = .ok step) : step.IsGradual 1 := by
  have hkeyword : ∀ typeNamespace name,
      (NameStep.done (if hasKeyword typeNamespace name then .primitive name
        else .plain name)).IsGradual 1 := by
    intro typeNamespace name
    unfold NameStep.IsGradual
    split_ifs <;> simp [TypeName.height]
  unfold lookAtToken at h
  split_ifs at h
  · cases hrow : m.typeDefs.get? token.row with
    | none =>
      rw [hrow] at h
      cases h
    | some row =>
      rw [hrow] at h
      obtain ⟨typeNamespace, -, h⟩ := OpenModule.exists_of_bind_eq_ok h
      obtain ⟨name, -, h⟩ := OpenModule.exists_of_bind_eq_ok h
      change (if _ then _ else _) = _ at h
      split_ifs at h
      · cases h
        simp [NameStep.IsGradual, TypeName.height]
      all_goals
        cases hgenerics : m.typeGenerics[token.row]? with
        | some parameters =>
          rw [hgenerics] at h
          cases h
          exact TypeName.height_generic_plain_le name parameters
        | none =>
          cases houter : m.enclosing[token.row]? with
          | none =>
            rw [hgenerics, houter] at h
            cases h
            simp [NameStep.IsGradual, TypeName.height]
          | some outer =>
            rw [hgenerics, houter] at h
            cases h
            simp [NameStep.IsGradual, NameNode.extra, TypeName.height]
  · obtain ⟨⟨typeNamespace, name⟩, -, h⟩ := OpenModule.exists_of_bind_eq_ok h
    cases h
    exact hkeyword typeNamespace name
  · cases hrow : m.typeSpecs.get? token.row with
    | none =>
      rw [hrow] at h
      cases h
    | some row =>
      rw [hrow] at h
      obtain ⟨blob, -, h⟩ := OpenModule.exists_of_bind_eq_ok h
      obtain ⟨sig, -, h⟩ := OpenModule.exists_of_bind_eq_ok h
      cases h
      intro target n htarget
      exact Nat.le_trans htarget (by simp [NameNode.extra]; omega)

/-- Every step raises names by one level at most. -/
lemma isGradual_of_look {node : NameNode} {step : NameStep} (h : m.look scope node = .ok step) :
    step.IsGradual node.extra := by
  cases node with
  | token token => exact isGradual_of_lookAtToken h
  | signature sig =>
    cases sig with
    | instantiation base args =>
      obtain ⟨names, -, h⟩ := OpenModule.exists_of_bind_eq_ok h
      cases h
      intro arg harg
      obtain ⟨sig, -, rfl⟩ := List.mem_map.mp harg
      rfl
    | pinned target =>
      cases h
      intro target n htarget
      exact Nat.le_succ_of_le htarget
    | _ =>
      cases h
      simp [NameStep.IsGradual, NameNode.extra, TypeName.height, TypeName.pointerTo]

/-- **A name is not higher than the levels that it may take.** -/
lemma height_nameWithin_le {levels : ℕ} {node : NameNode} {name : TypeName}
    (h : m.nameWithin scope levels node = .ok name) : name.height ≤ levels + node.extra := by
  induction levels generalizing node name with
  | zero =>
    rw [nameWithin_zero] at h
    cases h
  | succ levels ih =>
    rw [nameWithin_succ] at h
    obtain ⟨step, hlook, h⟩ := OpenModule.exists_of_bind_eq_ok h
    have hheight := (isGradual_of_look hlook).height_complete_le (fun x _ => ih) h
    omega

end MetadataModule

/-! ## Types with low names -/

/-- A name that is not higher than `nestingLimit`, apart from the mark for passing by reference. -/
def TypeName.IsLow (name : TypeName) : Prop :=
  name.height ≤ nestingLimit ∨
    ∃ target, name = .byRef target ∧ target.height ≤ nestingLimit

/-- All names in a type are low. Only return types and parameters are passed by reference. -/
structure TypeInfo.IsLow (type : TypeInfo) : Prop where
  /-- The types of fields. -/
  fields : ∀ f ∈ type.fields, f.type.height ≤ nestingLimit
  /-- The types of return values. -/
  returns : ∀ d ∈ type.methods, d.returnType.IsLow
  /-- The types of parameters. -/
  parameters : ∀ d ∈ type.methods, ∀ p ∈ d.parameters, p.type.IsLow

namespace MetadataModule

variable {m : MetadataModule} {scope : GenericScope}

/-- The name of a signature is low. -/
lemma height_signatureName_le {sig : TypeSig} {name : TypeName}
    (h : m.signatureName scope sig = .ok name) : name.height ≤ nestingLimit := by
  change m.nameWithin scope nestingLimit (.signature sig) = .ok name at h
  exact height_nameWithin_le h

/-- The name of a parameter or a return value is low. -/
lemma isLow_of_paramName {param : ParamSig} {name : TypeName}
    (h : m.paramName scope param = .ok name) : name.IsLow := by
  obtain ⟨type, htype, h⟩ := OpenModule.exists_of_bind_eq_ok h
  cases h
  have hheight := height_signatureName_le htype
  split_ifs
  · exact .inr ⟨type, rfl, hheight⟩
  · exact .inl hheight

/-- All names in a resolved type are low. -/
lemma isLow_of_resolveType {row : TypeDefRow} {type : TypeInfo}
    (h : (m.resolveType row).result = .ok (some type)) : type.IsLow := by
  obtain ⟨hfields, hmethods⟩ := namesMembers_of_resolveType h
  refine ⟨fun f hf => ?_, fun d hd => ?_, fun d hd p hp => ?_⟩
  · obtain ⟨rid, field, blob, sig, -, -, -, -, hname⟩ := hfields f hf
    exact height_signatureName_le hname
  · obtain ⟨rid, method, blob, sig, -, -, -, -, hreturns, -⟩ := hmethods d hd
    exact isLow_of_paramName hreturns
  · obtain ⟨rid, method, blob, sig, -, -, -, -, -, hparams⟩ := hmethods d hd
    obtain ⟨param, -, hparam⟩ := exists_of_map_eq (hparams.trans List.map_map.symm)
      (List.mem_map_of_mem hp)
    exact isLow_of_paramName hparam

/-! ## Cycles -/

open Relation

/-- A node has a name only if all nodes that it leads to have names, with less levels. -/
lemma exists_ok_of_transGen {levels : ℕ} {x y : NameNode} {name : TypeName}
    (hname : m.nameWithin scope levels x = .ok name) (h : TransGen m.Follows x y) :
    ∃ levels' < levels, ∃ name', m.nameWithin scope levels' y = .ok name' := by
  have hstep : ∀ {levels : ℕ} {x y : NameNode} {name : TypeName},
      m.nameWithin scope levels x = .ok name → m.Follows x y →
        ∃ levels' < levels, ∃ name', m.nameWithin scope levels' y = .ok name' := by
    intro levels x y name hname h
    rcases levels with _ | levels
    · rw [nameWithin_zero] at hname
      cases hname
    · exact ⟨levels, Nat.lt_succ_self _, exists_ok_of_follows hname h⟩
  induction h with
  | single h => exact hstep hname h
  | tail _ h ih =>
    obtain ⟨levels', hlt, name', hname'⟩ := ih
    obtain ⟨levels'', hlt', hname''⟩ := hstep hname' h
    exact ⟨levels'', by omega, hname''⟩

/-- **What leads back to itself has no name**, whatever levels it may take.

**Proof sketch.** By induction on the levels. A name would need one of the same node with less
levels. -/
lemma nameWithin_ne_ok_of_cycle {x : NameNode} (h : TransGen m.Follows x x) (levels : ℕ)
    (name : TypeName) : m.nameWithin scope levels x ≠ .ok name := by
  induction levels using Nat.strong_induction_on generalizing name with
  | _ levels ih =>
    intro hname
    obtain ⟨levels', hlt, name', hname'⟩ := exists_ok_of_transGen hname h
    exact ih levels' hlt name' hname'

/-- What leads to a node on a cycle has no name either. -/
lemma signatureName_ne_ok_of_cycle {sig : TypeSig} {x : NameNode}
    (hreach : ReflTransGen m.Follows (.signature sig) x) (h : TransGen m.Follows x x)
    (name : TypeName) : m.signatureName scope sig ≠ .ok name := by
  intro hname
  change m.nameWithin scope nestingLimit (.signature sig) = .ok name at hname
  obtain ⟨levels, -, name', hname'⟩ := exists_ok_of_transGen hname (TransGen.trans_right hreach h)
  exact nameWithin_ne_ok_of_cycle h levels name' hname'

variable (m) in
/-- A type has a member that is listed, and whose signature leads to a node. -/
inductive UsesNode (row : TypeDefRow) (x : NameNode) : Prop where
  /-- A field. -/
  | field {rid : ℕ} {field : FieldRow} {blob : ByteArray} {sig : TypeSig}
    (howns : m.Owns .field row rid) (hrow : m.fields.get? rid = some field)
    (hblob : m.blobs.get field.signature = .ok blob) (hsig : TypeSig.ofFieldBlob blob = .ok sig)
    (hreach : ReflTransGen m.Follows (.signature sig) x)
  /-- A method that is no constructor, by its return value or one of its parameters. -/
  | method {rid : ℕ} {method : MethodDefRow} {name : String} {blob : ByteArray} {sig : MethodSig}
    {param : ParamSig} (howns : m.Owns .method row rid) (hrow : m.methods.get? rid = some method)
    (hname : m.strings.get method.name = .ok name) (hlisted : name ∉ constructorNames)
    (hblob : m.blobs.get method.signature = .ok blob) (hsig : MethodSig.ofBlob blob = .ok sig)
    (hparam : param = sig.returns ∨ param ∈ sig.params)
    (hreach : ReflTransGen m.Follows (.signature param.type) x)

/-- **A type that uses what leads back to itself is not resolved.** -/
lemma resolveType_ne_ok_some_of_cycle {row : TypeDefRow} {x : NameNode}
    (h : TransGen m.Follows x x) (huses : m.UsesNode row x) (type : TypeInfo) :
    (m.resolveType row).result ≠ .ok (some type) := by
  intro hresult
  obtain ⟨fields, methods, infos, hownFields, hownMethods, hfields, hmethods, -⟩ :=
    resolveType_eq_ok_some hresult
  cases huses with
  | field howns hrow hblob hsig hreach =>
    obtain ⟨info, -, hinfo⟩ := exists_ok_of_map_eq hfields (howns.mem hownFields)
    obtain ⟨row', blob', sig', hrow', hblob', hsig', hname, -⟩ := resolveField_eq_ok hinfo
    obtain rfl : row' = _ := Option.some.inj (hrow'.symm.trans hrow)
    obtain rfl : blob' = _ := Except.ok.inj (hblob'.symm.trans hblob)
    obtain rfl : sig' = _ := Except.ok.inj (hsig'.symm.trans hsig)
    exact signatureName_ne_ok_of_cycle hreach h _ hname
  | @method rid _ _ _ _ _ howns hrow hname hlisted hblob hsig hparam hreach =>
    obtain ⟨info?, -, hinfo⟩ := exists_ok_of_map_eq hmethods (howns.mem hownMethods)
    obtain ⟨row', name', hrow', hname', hmethod⟩ := resolveMethod_eq_ok hinfo
    obtain rfl : row' = _ := Option.some.inj (hrow'.symm.trans hrow)
    obtain rfl : name' = _ := Except.ok.inj (hname'.symm.trans hname)
    obtain ⟨-, blob', sig', run, info, -, hblob', hsig', hreturns, -, hparams, -⟩ :=
      hmethod.resolve_left fun hconstructor => hlisted hconstructor.1
    obtain rfl : blob' = _ := Except.ok.inj (hblob'.symm.trans hblob)
    obtain rfl : sig' = _ := Except.ok.inj (hsig'.symm.trans hsig)
    rcases hparam with rfl | hparam
    · obtain ⟨type, htype, -⟩ := OpenModule.exists_of_bind_eq_ok hreturns
      exact signatureName_ne_ok_of_cycle hreach h _ htype
    · have hnames : sig'.params.map (m.paramName (m.methodScope row.rid rid)) =
          (info.parameters.map ParameterInfo.type).map .ok := by
        rw [List.map_map]
        exact map_paramName_of_resolveParam hparams
      obtain ⟨name, -, hname⟩ := exists_ok_of_map_eq hnames hparam
      obtain ⟨type, htype, -⟩ := OpenModule.exists_of_bind_eq_ok hname
      exact signatureName_ne_ok_of_cycle hreach h _ htype

end MetadataModule

/-! ## Loaded modules -/

namespace OpenModule

variable {m : OpenModule} {find? : Option (String → Option String)} {row : TypeDefRow} {rid : ℕ}

/-- Nothing of a type definition is listed: all types come from other rows, and as long as rows are
numbered with 24 bits, none has the token of this one. -/
structure IsAbsent (m : OpenModule) (l : LoadedModule) (row : TypeDefRow) : Prop where
  /-- All types come from other rows. -/
  types : l.types =
    (m.typeDefs.rows.filter fun other => other.rid ≠ row.rid).filterMap
      fun other => (m.outcome other).type?
  /-- No type has the token. -/
  token : m.typeDefs.rowCount < 2 ^ 24 → l.typesWith row.token = []

/-- A row from which no type comes is absent. -/
lemma isAbsent_of_type?_eq_none (hget : m.typeDefs.get? rid = some row)
    (h : (m.outcome row).type? = none) : m.IsAbsent (m.load find?).1 row := by
  have hself : ∀ other ∈ m.typeDefs.rows, other.rid = row.rid → other = row := by
    intro other hother hrid
    have hget' := get?_rid_of_mem_rows hother
    rw [hrid, rid_of_get? hget, hget] at hget'
    exact (Option.some.inj hget').symm
  refine ⟨?_, fun hcount => ?_⟩
  · rw [types_load, List.filterMap_map, List.filterMap_filter]
    refine List.filterMap_congr fun other hother => ?_
    by_cases hrid : other.rid = row.rid
    · rw [hself other hother hrid]
      simpa using h
    · simp [hrid]
  · rw [typesWith_load, List.filterMap_eq_nil_iff]
    intro other hother
    rw [List.mem_filter, decide_eq_true_eq] at hother
    obtain ⟨hmem, htoken⟩ := hother
    have hlength := length_rows_le m
    have hlt := (rid_of_mem_rows hmem).2
    have hrow : row.rid ≤ m.typeDefs.rowCount := by
      obtain ⟨⟨-, hbound⟩, -⟩ := (@Table.get?_eq_some_iff .typeDef m.typeDefs rid row).mp hget
      rwa [rid_of_get? hget]
    rw [TypeDefRow.token, TypeDefRow.token, token_eq_iff (by omega) (by omega)] at htoken
    rw [hself other hmem htoken, h]

/-- A row that is not resolved leaves an error. -/
lemma typeFailure_mem_diagnostics {e : Fault} (hrow : row ∈ m.typeDefs.rows)
    (h : (m.indexed.resolveType row).result = .error e) :
    typeFailure row e ∈ (m.load find?).1.diagnostics := by
  obtain ⟨warnings, -, hdiagnostics⟩ := m.exists_diagnostics_load find?
  rw [hdiagnostics, List.mem_append, List.mem_filterMap]
  refine .inr ⟨m.outcome row, List.mem_map_of_mem hrow, ?_⟩
  simp [outcome, TypeOutcome.failure?, h]

/-- All types that are listed have low names. -/
lemma isLow_of_mem_types {type : TypeInfo} (h : type ∈ (m.load find?).1.types) : type.IsLow := by
  obtain ⟨row, -, hresult⟩ := exists_row_of_mem_types h
  exact MetadataModule.isLow_of_resolveType hresult

/-- **Naming ends, names are low, and circles are never named.** Let a module be opened from any
metadata. Then it is loaded. Naming a node takes a stack of `nestingLimit + 1` frames at most. All
names in the types that are listed are low. A node from which naming comes back to it has no name,
and a type with a member that leads there is absent; unless it is the type that holds what belongs
to no type, there is an error about it.

**Proof sketch.** Each step of naming takes one of the levels and raises the name by one node at
most. So the frames are enough (`nameOnStack_eq`), names are low (`height_nameWithin_le`), and a
node on a circle would need a name with less levels than it takes (`nameWithin_ne_ok_of_cycle`). A
type is resolved only if all types in the signatures of its members have names. -/
theorem naming_ends {metadata : ByteArray} (find? : Option (String → Option String))
    (hopen : ofMetadata metadata = .ok m) :
    loadMetadata metadata find? = .ok (m.load find?) ∧
    (∀ scope frames depth node, nestingLimit - depth < frames →
      (m.indexed.nameOnStack scope frames depth node).run =
        some (m.indexed.nameWithin scope (nestingLimit - depth) node)) ∧
    (∀ type ∈ (m.load find?).1.types, type.IsLow) ∧
    ∀ node, Relation.TransGen m.indexed.Follows node node →
      (∀ scope levels name, m.indexed.nameWithin scope levels node ≠ .ok name) ∧
      ∀ rid row, m.typeDefs.get? rid = some row → m.indexed.UsesNode row node →
        m.IsAbsent (m.load find?).1 row ∧
        (m.strings.get row.typeName ≠ .ok moduleTypeName →
          ∃ e, (m.indexed.resolveType row).result = .error e ∧
            (row ∈ m.typeDefs.rows → typeFailure row e ∈ (m.load find?).1.diagnostics)) := by
  refine ⟨?_, ?_, fun type => isLow_of_mem_types, fun node hcycle => ⟨?_, ?_⟩⟩
  · rw [loadMetadata, hopen]
    rfl
  · intro scope frames depth node hframes
    rw [MetadataModule.nameOnStack_eq _ _ node hframes]
    rfl
  · intro scope levels name
    exact MetadataModule.nameWithin_ne_ok_of_cycle hcycle levels name
  · intro rid row hget huses
    have hnot := MetadataModule.resolveType_ne_ok_some_of_cycle hcycle huses
    cases hresult : (m.indexed.resolveType row).result with
    | error e =>
      refine ⟨isAbsent_of_type?_eq_none hget ?_, fun _ => ⟨e, rfl, fun hrow => ?_⟩⟩
      · simp [outcome, TypeOutcome.type?, hresult]
      · exact typeFailure_mem_diagnostics hrow hresult
    | ok type? =>
      obtain ⟨name, hname, ⟨rfl, rfl⟩ | ⟨-, type, rfl, -⟩⟩ := m.indexed.resolveType_eq_ok hresult
      · refine ⟨isAbsent_of_type?_eq_none hget ?_, fun hother => (hother hname).elim⟩
        simp [outcome, TypeOutcome.type?, hresult]
      · exact (hnot type hresult).elim

/-- Metadata with two constructed types, a vector of the other one and a pointer to it, and with two
types that own a field each, the first one a field of the first constructed type. -/
def circularMetadata : ByteArray :=
  ⟨
    #[0x42, 0x53, 0x4A, 0x42, 0x01, 0x00, 0x01, 0x00, 0x00, 0x00, 0x00, 0x00, 0x04, 0x00, 0x00,
      0x00, 0x76, 0x34, 0x00, 0x00, 0x00, 0x00, 0x03, 0x00, 0x48, 0x00, 0x00, 0x00, 0x50, 0x00,
      0x00, 0x00, 0x23, 0x7E, 0x00, 0x00, 0x98, 0x00, 0x00, 0x00, 0x05, 0x00, 0x00, 0x00, 0x23,
      0x53, 0x74, 0x72, 0x69, 0x6E, 0x67, 0x73, 0x00, 0x00, 0x00, 0x00, 0x9D, 0x00, 0x00, 0x00,
      0x10, 0x00, 0x00, 0x00, 0x23, 0x42, 0x6C, 0x6F, 0x62, 0x00, 0x00, 0x00, 0x00, 0x00, 0x00,
      0x00, 0x02, 0x00, 0x00, 0x01, 0x14, 0x00, 0x00, 0x08, 0x00, 0x00, 0x00, 0x00, 0x00, 0x00,
      0x00, 0x00, 0x00, 0x00, 0x00, 0x00, 0x02, 0x00, 0x00, 0x00, 0x02, 0x00, 0x00, 0x00, 0x02,
      0x00, 0x00, 0x00, 0x00, 0x00, 0x00, 0x00, 0x01, 0x00, 0x00, 0x00, 0x00, 0x00, 0x01, 0x00,
      0x01, 0x00, 0x00, 0x00, 0x00, 0x00, 0x03, 0x00, 0x00, 0x00, 0x00, 0x00, 0x02, 0x00, 0x01,
      0x00, 0x00, 0x00, 0x01, 0x00, 0x09, 0x00, 0x00, 0x00, 0x03, 0x00, 0x0D, 0x00, 0x01, 0x00,
      0x05, 0x00, 0x00, 0x41, 0x00, 0x42, 0x00, 0x00, 0x03, 0x1D, 0x12, 0x0A, 0x03, 0x0F, 0x12,
      0x06, 0x03, 0x06, 0x12, 0x06, 0x02, 0x06, 0x08]⟩

/-- The circle of a module by the general law: its first type is absent, and there is an error about
it. The second one is listed, with low names. -/
theorem absent_circularMetadata :
    ∃ m row e, ofMetadata circularMetadata = .ok m ∧
      Relation.TransGen m.indexed.Follows (.token (TableId.typeSpec.token 1))
        (.token (TableId.typeSpec.token 1)) ∧
      m.typeDefs.get? 1 = some row ∧ m.indexed.UsesNode row (.token (TableId.typeSpec.token 1)) ∧
      m.IsAbsent (m.load none).1 row ∧ typeFailure row e ∈ (m.load none).1.diagnostics ∧
      (m.load none).1.types.map TypeInfo.name = ["B"] ∧
      ∀ type ∈ (m.load none).1.types, type.IsLow := by
  have htest : (ofMetadata circularMetadata).toOption.any (fun m =>
      (m.indexed.typeSpecs.get? 1 = some ⟨1, 1⟩ ∧
        (m.indexed.blobs.get 1).toOption = some ⟨#[0x1D, 0x12, 0x0A]⟩) ∧
      (m.indexed.typeSpecs.get? 2 = some ⟨2, 5⟩ ∧
        (m.indexed.blobs.get 5).toOption = some ⟨#[0x0F, 0x12, 0x06]⟩) ∧
      (m.indexed.fields.get? 1 = some ⟨1, 0, 1, 9⟩ ∧
        (m.indexed.blobs.get 9).toOption = some ⟨#[0x06, 0x12, 0x06]⟩) ∧
      m.typeDefs.get? 1 = some ⟨1, 0, 1, 0, ⟨.typeDef, 0⟩, 1, 1⟩ ∧
      ⟨1, 0, 1, 0, ⟨.typeDef, 0⟩, 1, 1⟩ ∈ m.typeDefs.rows ∧
      (m.strings.get 1).toOption = some "A" ∧
      (m.indexed.runOf .field ⟨1, 0, 1, 0, ⟨.typeDef, 0⟩, 1, 1⟩).result.toOption = some [1] ∧
      (m.load none).1.types.map TypeInfo.name = ["B"]) = true := by
    decide +kernel
  obtain ⟨m, hopen, htest⟩ := exists_ok_of_any htest
  obtain ⟨⟨hfirst, hfirstBlob⟩, ⟨hsecond, hsecondBlob⟩, ⟨hfield, hfieldBlob⟩, hget, hrow, hname,
    hrun, htypes⟩ := of_decide_eq_true htest
  -- The circle goes from the first constructed type through its elements to the second one, and
  -- back through the target of a pointer.
  have hcycle : Relation.TransGen m.indexed.Follows (.token (TableId.typeSpec.token 1))
      (.token (TableId.typeSpec.token 1)) := by
    refine .head (.typeSpec (by decide) hfirst (eq_ok_of_toOption_eq_some hfirstBlob) rfl) ?_
    refine .head (.vector _) (.head (.classType _) ?_)
    refine .head (.typeSpec (by decide) hsecond (eq_ok_of_toOption_eq_some hsecondBlob) rfl) ?_
    exact .head (.pointer _) (.single (.classType _))
  have huses : m.indexed.UsesNode ⟨1, 0, 1, 0, ⟨.typeDef, 0⟩, 1, 1⟩
      (.token (TableId.typeSpec.token 1)) :=
    .field ⟨[1], eq_ok_of_toOption_eq_some hrun, List.mem_singleton_self 1⟩ hfield
      (eq_ok_of_toOption_eq_some hfieldBlob) rfl (.single (.classType _))
  obtain ⟨-, -, hlow, hcircles⟩ := naming_ends none hopen
  obtain ⟨habsent, hfails⟩ := (hcircles _ hcycle).2 1 _ hget huses
  have hordinary : m.strings.get 1 ≠ .ok moduleTypeName := by
    rw [eq_ok_of_toOption_eq_some hname]
    simp [moduleTypeName]
  obtain ⟨e, -, herror⟩ := hfails hordinary
  exact ⟨m, _, e, hopen, hcycle, hget, huses, habsent, herror hrow, htypes, hlow⟩

end OpenModule

end TypeInventory
