import TypeInventory.Proofs.Module.Runs

set_option relaxedAutoImplicit false
set_option autoImplicit false

/-!
# What resolved members are made of

A type is resolved member by member, and a member part by part. When a type is resolved, so are
all of its members; when a member is resolved, its row, its name and its signature could be read,
and all types in the signature could be named. This module says so, once for each kind of member.

## Main definitions

* `ModuleTables.Owns` — a row is a member of a type or a method.
* `MetadataModule.fieldScope`, `MetadataModule.methodScope` — the generic parameters that members of
  a type may mention.
* `MetadataModule.Binds` — what a parameter has from the row about it, and what from its signature.

## Main results

* `mapM_eq_ok_iff`, `Resolution.result_forEach_eq_ok_iff` — a list is resolved when all of its
  members are.
* `MetadataModule.resolveParam_eq_ok_iff` — parameters are resolved to what is bound to their rows.
* `MetadataModule.resolveField_eq_ok`, `MetadataModule.resolveMethod_eq_ok` — resolved members.
* `MetadataModule.resolveType_eq_ok_some` — a resolved type.
* `MetadataModule.namesMembers_of_resolveType` — how the members of a resolved type are named.
-/

namespace TypeInventory

/-! ## Results -/

section Results

variable {α β γ : Type}

/-- A result that gives some value is that value. -/
lemma eq_ok_of_toOption_eq_some {x : Except Fault α} {a : α} (h : x.toOption = some a) :
    x = .ok a := by
  cases x with
  | error e => cases h
  | ok b => exact congrArg Except.ok (Option.some.inj h)

/-- A list of results is there when all of them are. -/
lemma mapM_eq_ok_iff {f : α → Except Fault β} {as : List α} {bs : List β} :
    as.mapM f = .ok bs ↔ as.map f = bs.map .ok := by
  induction as generalizing bs with
  | nil =>
    show Except.ok [] = Except.ok bs ↔ _
    simp [eq_comm]
  | cons a as ih =>
    rw [List.mapM_cons]
    constructor
    · intro h
      obtain ⟨b, hb, h⟩ := OpenModule.exists_of_bind_eq_ok h
      obtain ⟨rest, hrest, h⟩ := OpenModule.exists_of_bind_eq_ok h
      cases h
      rw [List.map_cons, List.map_cons, hb, ih.mp hrest]
    · intro h
      rcases bs with _ | ⟨b, rest⟩
      · cases h
      · rw [List.map_cons, List.map_cons, List.cons.injEq] at h
        rw [h.1, ih.mpr h.2]
        rfl

/-- Results of a list are the same if they are so for each member. -/
lemma mapM_congr {f g : α → Except Fault β} {as : List α} (h : ∀ a ∈ as, f a = g a) :
    as.mapM f = as.mapM g := by
  induction as with
  | nil => rfl
  | cons a as ih =>
    rw [List.mapM_cons, List.mapM_cons, h a List.mem_cons_self,
      ih fun b hb => h b (List.mem_cons_of_mem a hb)]

/-- Resolving the members of a list gives a list when each of them is resolved. -/
lemma Resolution.result_forEach_eq_ok_iff {f : α → Resolution β} {as : List α} {bs : List β} :
    (forEach f as).result = .ok bs ↔ as.map (fun a => (f a).result) = bs.map .ok := by
  induction as generalizing bs with
  | nil =>
    show Except.ok [] = Except.ok bs ↔ _
    simp [eq_comm]
  | cons a as ih =>
    rw [forEach_cons]
    constructor
    · intro h
      obtain ⟨b, hb, h⟩ := result_bind_eq_ok_iff.mp h
      obtain ⟨rest, hrest, h⟩ := result_bind_eq_ok_iff.mp h
      cases h
      rw [List.map_cons, List.map_cons, hb, ih.mp hrest]
    · intro h
      rcases bs with _ | ⟨b, rest⟩
      · cases h
      · rw [List.map_cons, List.map_cons, List.cons.injEq] at h
        exact result_bind_eq_ok_iff.mpr
          ⟨b, h.1, result_bind_eq_ok_iff.mpr ⟨rest, ih.mpr h.2, rfl⟩⟩

/-- If all results of a list are there, so is that of each member. -/
lemma exists_ok_of_map_eq {f : α → Except Fault β} {as : List α} {bs : List β}
    (h : as.map f = bs.map .ok) {a : α} (ha : a ∈ as) : ∃ b ∈ bs, f a = .ok b := by
  have hmem : f a ∈ bs.map .ok := h ▸ List.mem_map_of_mem ha
  obtain ⟨b, hb, heq⟩ := List.mem_map.mp hmem
  exact ⟨b, hb, heq.symm⟩

/-- If all results of a list are there, each of them is that of a member. -/
lemma exists_of_map_eq {f : α → Except Fault β} {as : List α} {bs : List β}
    (h : as.map f = bs.map .ok) {b : β} (hb : b ∈ bs) : ∃ a ∈ as, f a = .ok b := by
  have hmem : Except.ok b ∈ as.map f := h ▸ List.mem_map_of_mem hb
  exact List.mem_map.mp hmem

/-- What follows from each result alone follows for a list of them. -/
lemma map_eq_of_map_eq {f : α → Except Fault β} {g : α → Except Fault γ} {part : β → γ}
    (hpart : ∀ a b, f a = .ok b → g a = .ok (part b)) {as : List α} {bs : List β}
    (h : as.map f = bs.map .ok) : as.map g = bs.map fun b => .ok (part b) := by
  induction as generalizing bs with
  | nil =>
    rcases bs with _ | ⟨b, rest⟩
    · rfl
    · cases h
  | cons a as ih =>
    rcases bs with _ | ⟨b, rest⟩
    · cases h
    · rw [List.map_cons, List.map_cons, List.cons.injEq] at h
      rw [List.map_cons, List.map_cons, hpart a b h.1, ih h.2]

/-- Two resolutions with the same first step are the same if their second steps are the same behind
all that the first step may give. -/
lemma Resolution.bind_congr {x : Resolution α} {f g : α → Resolution β}
    (h : ∀ a, x.result = .ok a → f a = g a) : x >>= f = x >>= g := by
  show Resolution.bind x f = Resolution.bind x g
  unfold Resolution.bind
  cases hx : x.result with
  | error e => rfl
  | ok a => simp only [h a hx]

/-- Resolutions of the same list are the same if they are so for each member. -/
lemma Resolution.forEach_congr {f g : α → Resolution β} {as : List α} (h : ∀ a ∈ as, f a = g a) :
    forEach f as = forEach g as := by
  induction as with
  | nil => rfl
  | cons a as ih =>
    rw [forEach_cons, forEach_cons, h a List.mem_cons_self,
      ih fun b hb => h b (List.mem_cons_of_mem a hb)]

end Results

/-! ## Owners -/

/-- Row `rid` is a member of an owner: it is in the run of the owner. -/
def ModuleTables.Owns (m : ModuleTables) (list : MemberList) (owner : list.ownerKind.Row)
    (rid : ℕ) : Prop :=
  ∃ members, (m.runOf list owner).result = .ok members ∧ rid ∈ members

/-- The members of an owner are those in its run. -/
lemma ModuleTables.Owns.mem {m : ModuleTables} {list : MemberList} {owner : list.ownerKind.Row}
    {rid : ℕ} {members : List ℕ} (h : m.Owns list owner rid)
    (hrun : (m.runOf list owner).result = .ok members) : rid ∈ members := by
  obtain ⟨members', hrun', hmem⟩ := h
  rw [hrun] at hrun'
  cases hrun'
  exact hmem

namespace MetadataModule

variable (m : MetadataModule)

/-- The generic parameters that the fields of the type in row `owner` may mention. -/
def fieldScope (owner : ℕ) : GenericScope where
  typeParameters := (m.typeGenerics[owner]?).getD []

/-- The generic parameters that method `rid` of the type in row `owner` may mention. -/
def methodScope (owner rid : ℕ) : GenericScope where
  typeParameters := (m.typeGenerics[owner]?).getD []
  methodParameters := (m.methodGenerics[rid]?).getD []

/-! ## Members -/

variable {m}

/-- **A resolved field** has a row, and its name and its signature could be read. Its type is named
in the scope of its owner, and it has the token of its row and shows the mark of this token. -/
lemma resolveField_eq_ok {owner rid : ℕ} {info : FieldInfo}
    (h : m.resolveField ((m.typeGenerics[owner]?).getD []) rid = .ok info) :
    ∃ row blob sig, m.fields.get? rid = some row ∧ m.blobs.get row.signature = .ok blob ∧
      TypeSig.ofFieldBlob blob = .ok sig ∧
      m.signatureName (m.fieldScope owner) sig = .ok info.type ∧
      info.token = row.token ∧ info.isGenerated = m.isGenerated info.token := by
  unfold resolveField at h
  cases hrow : m.fields.get? rid with
  | none =>
    rw [hrow] at h
    cases h
  | some row =>
    rw [hrow] at h
    obtain ⟨name, -, h⟩ := OpenModule.exists_of_bind_eq_ok h
    obtain ⟨blob, hblob, h⟩ := OpenModule.exists_of_bind_eq_ok h
    obtain ⟨sig, hsig, h⟩ := OpenModule.exists_of_bind_eq_ok h
    obtain ⟨type, htype, h⟩ := OpenModule.exists_of_bind_eq_ok h
    cases h
    exact ⟨row, blob, sig, rfl, hblob, hsig, htype, rfl, rfl⟩

/-- A parameter is bound to the row about it, if there is one: from there it has its name and its
flags, and from the signature all the rest. A parameter without a row has an empty name and no
flags. -/
structure Binds (m : MetadataModule) (scope : GenericScope) (param : ParamSig)
    (row? : Option ParamRow) (info : ParameterInfo) : Prop where
  /-- Its type is that of the signature. -/
  type : m.paramName scope param = .ok info.type
  /-- It is passed by reference if the signature says so. -/
  isRef : info.isRef = param.byRef
  /-- It has the name that the row gives. -/
  name : ∀ row, row? = some row → m.strings.get row.name = .ok info.name
  /-- Without a row it has no name. -/
  unnamed : row? = none → info.name = ""
  /-- It is assigned by the method if the row says so. -/
  isOut : info.isOut = row?.any fun row => row.flags.testBit outBit
  /-- It is optional if the row says so. -/
  isOptional : info.isOptional = row?.any fun row => row.flags.testBit optionalBit

/-- A parameter is resolved to what is bound to the row about its position. -/
lemma resolveParam_eq_ok_iff {scope : GenericScope} {rows : Std.TreeMap ℕ ParamRow}
    {param : ParamSig} {position : ℕ} {info : ParameterInfo} :
    m.resolveParam scope rows param position = .ok info ↔
      m.Binds scope param rows[position]? info := by
  unfold resolveParam
  constructor
  · intro h
    obtain ⟨type, htype, h⟩ := OpenModule.exists_of_bind_eq_ok h
    cases hrow : rows[position]? with
    | none =>
      rw [hrow] at h
      cases h
      exact ⟨htype, rfl, fun _ h => (nomatch h), fun _ => rfl, rfl, rfl⟩
    | some row =>
      rw [hrow] at h
      obtain ⟨name, hname, h⟩ := OpenModule.exists_of_bind_eq_ok h
      cases h
      exact ⟨htype, rfl, fun _ h => Option.some.inj h ▸ hname, fun h => (nomatch h), rfl, rfl⟩
  · rintro ⟨htype, hisRef, hname, hunnamed, hisOut, hisOptional⟩
    obtain ⟨name, type, isOut, isRef, isOptional⟩ := info
    simp only at htype hisRef hname hunnamed hisOut hisOptional
    subst hisRef hisOut hisOptional
    rw [htype]
    cases hrow : rows[position]? with
    | none =>
      rw [hunnamed hrow]
      rfl
    | some row =>
      show (do let name ← m.strings.get row.name; _ : Except Fault ParameterInfo) = _
      rw [hname row hrow]
      rfl

/-- **A resolved method** has a row, and its name could be read. Unless it is a constructor, its
signature could be read too, its return value is named in the scope of the method, its parameters
are resolved one by one with the rows in its run, and it shows the mark of its token. -/
lemma resolveMethod_eq_ok {typeParameters : List String} {rid : ℕ} {info? : Option MethodInfo}
    (h : (m.resolveMethod typeParameters rid).result = .ok info?) :
    ∃ row name, m.methods.get? rid = some row ∧ m.strings.get row.name = .ok name ∧
      ((name ∈ constructorNames ∧ info? = none) ∨
        (name ∉ constructorNames ∧ ∃ blob sig run info, info? = some info ∧
          m.blobs.get row.signature = .ok blob ∧ MethodSig.ofBlob blob = .ok sig ∧
          m.paramName ⟨typeParameters, (m.methodGenerics[rid]?).getD []⟩ sig.returns =
            .ok info.returnType ∧
          (m.runOf .param row).result = .ok run ∧
          (sig.params.zipIdx 1).map (fun x =>
              m.resolveParam ⟨typeParameters, (m.methodGenerics[rid]?).getD []⟩
                (m.paramsByPosition run) x.1 x.2) =
            info.parameters.map .ok ∧
          info.isGenerated = m.isGenerated info.token)) := by
  unfold resolveMethod at h
  cases hrow : m.methods.get? rid with
  | none =>
    rw [hrow] at h
    cases h
  | some row =>
    rw [hrow] at h
    obtain ⟨name, hname, h⟩ := Resolution.result_bind_eq_ok_iff.mp h
    refine ⟨row, name, rfl, hname, ?_⟩
    split_ifs at h with hconstructor
    · cases h
      exact .inl ⟨List.contains_iff_mem.mp hconstructor, rfl⟩
    · obtain ⟨blob, hblob, h⟩ := Resolution.result_bind_eq_ok_iff.mp h
      obtain ⟨sig, hsig, h⟩ := Resolution.result_bind_eq_ok_iff.mp h
      obtain ⟨returnType, hreturns, h⟩ := Resolution.result_bind_eq_ok_iff.mp h
      obtain ⟨run, hrun, h⟩ := Resolution.result_bind_eq_ok_iff.mp h
      obtain ⟨parameters, hparameters, h⟩ := Resolution.result_bind_eq_ok_iff.mp h
      cases h
      have hnumber : MemberList.param.ownerNumber row = rid := ModuleTables.ownerNumber_of_get? hrow
      subst hnumber
      exact .inr ⟨fun hmem => hconstructor (List.contains_iff_mem.mpr hmem), blob, sig, run, _, rfl,
        hblob, hsig, hreturns, hrun, mapM_eq_ok_iff.mp hparameters, rfl⟩

/-- Resolved parameters have the types of their signatures. -/
lemma map_paramName_of_resolveParam {scope : GenericScope} {rows : Std.TreeMap ℕ ParamRow}
    {params : List ParamSig} {parameters : List ParameterInfo}
    (h : (params.zipIdx 1).map (fun x => m.resolveParam scope rows x.1 x.2) =
      parameters.map .ok) :
    params.map (m.paramName scope) = parameters.map fun p => .ok p.type := by
  have hnamed : (params.zipIdx 1).map (m.paramName scope ∘ Prod.fst) =
      parameters.map fun p => .ok p.type :=
    map_eq_of_map_eq (fun _ _ hparam => (resolveParam_eq_ok_iff.mp hparam).type) h
  rwa [← List.map_map, List.zipIdx_map_fst] at hnamed

/-! ## Types -/

/-- **A resolved type** that is listed: its fields are resolved one by one, and so are its methods,
of which constructors are not listed. It shows the mark of its token. -/
lemma resolveType_eq_ok_some {row : TypeDefRow} {type : TypeInfo}
    (h : (m.resolveType row).result = .ok (some type)) :
    ∃ (fields methods : List ℕ) (infos : List (Option MethodInfo)),
      (m.runOf .field row).result = .ok fields ∧
      (m.runOf .method row).result = .ok methods ∧
      fields.map (m.resolveField ((m.typeGenerics[row.rid]?).getD [])) = type.fields.map .ok ∧
      methods.map (fun rid => (m.resolveMethod ((m.typeGenerics[row.rid]?).getD []) rid).result) =
        infos.map .ok ∧
      type.methods = infos.filterMap id ∧ type.isGenerated = m.isGenerated type.token := by
  unfold resolveType at h
  obtain ⟨name, -, h⟩ := Resolution.result_bind_eq_ok_iff.mp h
  split_ifs at h with hmodule
  · cases h
  · obtain ⟨fullName, -, h⟩ := Resolution.result_bind_eq_ok_iff.mp h
    obtain ⟨kind, -, h⟩ := Resolution.result_bind_eq_ok_iff.mp h
    obtain ⟨fieldRows, hfieldRows, h⟩ := Resolution.result_bind_eq_ok_iff.mp h
    obtain ⟨fields, hfields, h⟩ := Resolution.result_bind_eq_ok_iff.mp h
    obtain ⟨methodRows, hmethodRows, h⟩ := Resolution.result_bind_eq_ok_iff.mp h
    obtain ⟨methods, hmethods, h⟩ := Resolution.result_bind_eq_ok_iff.mp h
    cases h
    exact ⟨fieldRows, methodRows, methods, hfieldRows, hmethodRows,
      Resolution.result_forEach_eq_ok_iff.mp hfields,
      Resolution.result_forEach_eq_ok_iff.mp hmethods, rfl, rfl⟩

/-- The members of a resolved type are named in the scopes that they belong to: each field in that
of its type, each method in its own. -/
structure NamesMembers (m : MetadataModule) (row : TypeDefRow) (type : TypeInfo) : Prop where
  /-- The types of fields. -/
  fields : ∀ f ∈ type.fields, ∃ rid field blob sig,
    m.Owns .field row rid ∧ m.fields.get? rid = some field ∧
      m.blobs.get field.signature = .ok blob ∧ TypeSig.ofFieldBlob blob = .ok sig ∧
      m.signatureName (m.fieldScope row.rid) sig = .ok f.type
  /-- The types of return values and parameters. -/
  methods : ∀ d ∈ type.methods, ∃ rid method blob sig,
    m.Owns .method row rid ∧ m.methods.get? rid = some method ∧
      m.blobs.get method.signature = .ok blob ∧ MethodSig.ofBlob blob = .ok sig ∧
      m.paramName (m.methodScope row.rid rid) sig.returns = .ok d.returnType ∧
      sig.params.map (m.paramName (m.methodScope row.rid rid)) =
        d.parameters.map fun p => .ok p.type

/-- **What a type lists is named in the scopes of its members.** -/
lemma namesMembers_of_resolveType {row : TypeDefRow} {type : TypeInfo}
    (h : (m.resolveType row).result = .ok (some type)) : m.NamesMembers row type := by
  obtain ⟨fields, methods, infos, hownFields, hownMethods, hfields, hmethods, hinfos, -⟩ :=
    resolveType_eq_ok_some h
  refine ⟨fun f hf => ?_, fun d hd => ?_⟩
  · obtain ⟨rid, hmem, hrid⟩ := exists_of_map_eq hfields hf
    obtain ⟨field, blob, sig, hrow, hblob, hsig, htype, -⟩ := resolveField_eq_ok hrid
    exact ⟨rid, field, blob, sig, ⟨fields, hownFields, hmem⟩, hrow, hblob, hsig, htype⟩
  · rw [hinfos, List.mem_filterMap] at hd
    obtain ⟨info?, hinfo, rfl⟩ := hd
    obtain ⟨rid, hmem, hrid⟩ := exists_of_map_eq hmethods hinfo
    obtain ⟨method, name, hrow, -,
      ⟨-, hnone⟩ | ⟨-, blob, sig, run, info, heq, hblob, hsig, hreturns, -, hparams, -⟩⟩ :=
      resolveMethod_eq_ok hrid
    · cases hnone
    · cases heq
      exact ⟨rid, method, blob, sig, ⟨methods, hownMethods, hmem⟩, hrow, hblob, hsig, hreturns,
        map_paramName_of_resolveParam hparams⟩

end MetadataModule

end TypeInventory
