import TypeInventory.Proofs.Module.Members
import TypeInventory.Proofs.Module.Ownership

set_option relaxedAutoImplicit false
set_option autoImplicit false

/-!
# Marks of compiler-made code

A type, field or method is marked as compiler-made if it carries an attribute of one particular
type. The attribute names the method that constructs it, and the type is that of the method: the one
that owns it if it is defined here, the one that a reference to it names if it is defined elsewhere.
This module proves that the marks are exact.

## Main definitions

* `ModuleTables.ConstructsMark` — what constructs the attribute in question.
* `OpenModule.Carries` — an attribute in question is about a token.

## Main results

* `ModuleTables.mem_generatedTokens_iff` — what is gathered from the attributes of a module.
* `ModuleTables.attributeType?_eq_iff` — the type of an attribute, table by table.
* `MetadataModule.isGenerated_of_resolveType` — descriptors show the marks of their tokens.
* `OpenModule.marks_exact` — a descriptor is marked exactly if its token carries the attribute.
-/

namespace TypeInventory

/-! ## What is gathered -/

/-- Inserting the images of those members of a list that pass a test. -/
lemma contains_foldl_insert {α : Type} (p : α → Prop) [DecidablePred p] (f : α → ℕ) (as : List α)
    (known : Std.TreeSet ℕ) (n : ℕ) :
    (as.foldl (fun set a => if p a then set.insert (f a) else set) known).contains n = true ↔
      known.contains n = true ∨ ∃ a ∈ as, p a ∧ f a = n := by
  induction as generalizing known with
  | nil => simp
  | cons a as ih =>
    rw [List.foldl_cons, ih]
    by_cases hp : p a
    · rw [if_pos hp, Std.TreeSet.contains_insert]
      simp only [Bool.or_eq_true, beq_iff_eq, Nat.compare_eq_eq, List.exists_mem_cons_iff, hp,
        true_and]
      tauto
    · rw [if_neg hp]
      simp [hp]

/-- Tokens are the same if their words are. -/
lemma Token.toNat_value_inj {s t : Token} : s.value.toNat = t.value.toNat ↔ s = t := by
  rw [UInt32.toNat_inj]
  constructor
  · intro h
    cases s
    cases t
    exact congrArg Token.mk h
  · rintro rfl
    rfl

namespace ModuleTables

variable {m : ModuleTables} {memberRefs : Table MemberRefRow}

/-- **What is gathered** are the tokens that attributes of the type in question are about. -/
lemma mem_generatedTokens_iff (attributes : List CustomAttributeRow) (token : Token) :
    (m.generatedTokens memberRefs attributes).contains token.value.toNat = true ↔
      ∃ attr ∈ attributes, attr.parent.token = token ∧
        m.attributeType? memberRefs (m.methodRuns m.typeDefs.rows) attr.maker =
          some generatedAttribute := by
  rw [generatedTokens, contains_foldl_insert]
  simp only [Std.TreeSet.contains_emptyc, Bool.false_eq_true, false_or, Token.toNat_value_inj]
  constructor
  · rintro ⟨attr, hmem, htype, htoken⟩
    exact ⟨attr, hmem, htoken, htype⟩
  · rintro ⟨attr, hmem, htoken, htype⟩
    exact ⟨attr, hmem, htype, htoken⟩

variable (m memberRefs) in
/-- What constructs the attribute for compiler-made code: a method among the members of a type with
the name of this attribute, and of no type before it; or a reference to a member of a type with this
name, which is defined here or elsewhere. -/
inductive ConstructsMark : CodedIndex → Prop
  | method {row owner : ℕ} (howner : m.ownerByRuns? row = some owner)
    (hnames : m.typeDefNames owner = .ok generatedAttribute) : ConstructsMark ⟨.methodDef, row⟩
  | memberOfRef {row type : ℕ} {member : MemberRefRow} (hmember : memberRefs.get? row = some member)
    (hparent : member.parent = ⟨.typeRef, type⟩)
    (hnames : m.typeRefNames type = .ok generatedAttribute) : ConstructsMark ⟨.memberRef, row⟩
  | memberOfDef {row type : ℕ} {member : MemberRefRow} (hmember : memberRefs.get? row = some member)
    (hparent : member.parent = ⟨.typeDef, type⟩)
    (hnames : m.typeDefNames type = .ok generatedAttribute) : ConstructsMark ⟨.memberRef, row⟩

/-- **The type of an attribute** is the one in question exactly if its maker constructs it. -/
lemma attributeType?_eq_iff (howners : ∀ method, m.ownerOf? method = m.ownerByRuns? method)
    (maker : CodedIndex) :
    m.attributeType? memberRefs (m.methodRuns m.typeDefs.rows) maker = some generatedAttribute ↔
      m.ConstructsMark memberRefs maker := by
  constructor
  · intro h
    obtain ⟨table, row⟩ := maker
    cases table with
    | methodDef =>
      obtain ⟨owner, howner, hnames⟩ := Option.bind_eq_some_iff.mp h
      exact .method ((howners row).symm.trans howner) (eq_ok_of_toOption_eq_some hnames)
    | memberRef =>
      obtain ⟨⟨rid, ⟨table, type⟩, name, signature⟩, hmember, hnames⟩ :=
        Option.bind_eq_some_iff.mp h
      cases table with
      | typeRef => exact .memberOfRef hmember rfl (eq_ok_of_toOption_eq_some hnames)
      | typeDef => exact .memberOfDef hmember rfl (eq_ok_of_toOption_eq_some hnames)
      | _ => cases hnames
    | _ => cases h
  · rintro (⟨howner, hnames⟩ | ⟨hmember, hparent, hnames⟩ | ⟨hmember, hparent, hnames⟩)
    · rw [← howners, ownerOf?] at howner
      simp [attributeType?, howner, hnames, Except.toOption]
    · simp [attributeType?, hmember, hparent, hnames, Except.toOption]
    · simp [attributeType?, hmember, hparent, hnames, Except.toOption]

end ModuleTables

/-! ## Descriptors -/

namespace MetadataModule

variable {m : MetadataModule}

/-- **A type and its members show the marks of their tokens.** -/
lemma isGenerated_of_resolveType {row : TypeDefRow} {type : TypeInfo}
    (h : (m.resolveType row).result = .ok (some type)) :
    type.isGenerated = m.isGenerated type.token ∧
      (∀ f ∈ type.fields, f.isGenerated = m.isGenerated f.token) ∧
      ∀ d ∈ type.methods, d.isGenerated = m.isGenerated d.token := by
  obtain ⟨fields, methods, infos, -, -, hfields, hmethods, hinfos, hself⟩ :=
    resolveType_eq_ok_some h
  refine ⟨hself, fun f hf => ?_, fun d hd => ?_⟩
  · obtain ⟨rid, -, hrid⟩ := exists_of_map_eq hfields hf
    obtain ⟨row, blob, sig, -, -, -, -, -, hmark⟩ := resolveField_eq_ok hrid
    exact hmark
  · rw [hinfos, List.mem_filterMap] at hd
    obtain ⟨info?, hinfo, rfl⟩ := hd
    obtain ⟨rid, -, hrid⟩ := exists_of_map_eq hmethods hinfo
    obtain ⟨method, name, -, -,
      ⟨-, hnone⟩ | ⟨-, blob, sig, run, info, heq, -, -, -, -, -, hmark⟩⟩ := resolveMethod_eq_ok hrid
    · cases hnone
    · cases heq
      exact hmark

end MetadataModule

namespace OpenModule

/-- The attributes of an opened module. -/
def customAttributes (m : OpenModule) : Table CustomAttributeRow :=
  m.tables.table CustomAttributeRow

/-- The references to members of other types. -/
def memberRefs (m : OpenModule) : Table MemberRefRow :=
  m.tables.table MemberRefRow

/-- An attribute for compiler-made code is about a token. -/
def Carries (m : OpenModule) (token : Token) : Prop :=
  ∃ rid attr, m.customAttributes.get? rid = some attr ∧ attr.parent.token = token ∧
    m.indexed.ConstructsMark m.memberRefs attr.maker

variable {m : OpenModule}

/-- The attributes up to the first unreadable one are searched. -/
lemma isGenerated_iff (token : Token) :
    m.indexed.isGenerated token = true ↔
      ∃ attr ∈ m.customAttributes.rows, attr.parent.token = token ∧
        m.indexed.attributeType? m.memberRefs (m.indexed.methodRuns m.indexed.typeDefs.rows)
          attr.maker = some generatedAttribute :=
  ModuleTables.mem_generatedTokens_iff m.customAttributes.rows token

/-- **Marks are exact.** In a module whose attributes and types can all be read, and the runs of
whose types lie within the list of methods, a type that is listed, a field and a method are marked
as compiler-made exactly if an attribute is about their token and is constructed by what constructs
the mark: by a method that is a member of a type with the name of the attribute, and of no type
before it, or by a reference to a member of such a type.

**Proof sketch.** Descriptors show what is gathered for their tokens (`isGenerated_of_resolveType`),
which are the tokens that attributes of the type in question are about (`isGenerated_iff`). The type
of an attribute is found through the owner of a method, and where runs lie within the list, this is
the type with the method among its members (`ownerOf?_of_fits`). -/
theorem marks_exact (find? : Option (String → Option String))
    (hattributes : ∀ rid, 1 ≤ rid → rid ≤ m.customAttributes.rowCount →
      (m.customAttributes.get? rid).isSome)
    (htypes : ∀ rid, 1 ≤ rid → rid ≤ m.typeDefs.rowCount → (m.typeDefs.get? rid).isSome)
    (hruns : ∀ rid, 1 ≤ rid → rid ≤ m.typeDefs.rowCount →
      ModuleTables.RunFits (m.indexed.memberCount .method) (m.indexed.startAt .method rid)
        (m.indexed.startAt .method (rid + 1))) :
    ∀ type ∈ (m.load find?).1.types,
      (type.isGenerated = true ↔ m.Carries type.token) ∧
      (∀ f ∈ type.fields, f.isGenerated = true ↔ m.Carries f.token) ∧
      ∀ d ∈ type.methods, d.isGenerated = true ↔ m.Carries d.token := by
  have howners : ∀ method, m.indexed.ownerOf? method = m.indexed.ownerByRuns? method :=
    fun method =>
      ModuleTables.ownerOf?_of_fits (@Table.length_rows_eq .typeDef m.typeDefs htypes) hruns
  have hmark : ∀ token, m.indexed.isGenerated token = true ↔ m.Carries token := by
    intro token
    have hrows : ∀ attr, attr ∈ m.customAttributes.rows ↔
        ∃ rid, m.customAttributes.get? rid = some attr := fun attr =>
      @Table.mem_rows_iff .customAttribute m.customAttributes hattributes attr
    rw [isGenerated_iff]
    simp only [hrows, ModuleTables.attributeType?_eq_iff howners]
    constructor
    · rintro ⟨attr, ⟨rid, hrow⟩, htoken, hmaker⟩
      exact ⟨rid, attr, hrow, htoken, hmaker⟩
    · rintro ⟨rid, attr, hrow, htoken, hmaker⟩
      exact ⟨attr, ⟨rid, hrow⟩, htoken, hmaker⟩
  intro type htype
  obtain ⟨row, -, hrow⟩ := exists_row_of_mem_types htype
  obtain ⟨hself, hfields, hmethods⟩ := MetadataModule.isGenerated_of_resolveType hrow
  refine ⟨?_, fun f hf => ?_, fun d hd => ?_⟩
  · rw [hself, hmark]
  · rw [hfields f hf, hmark]
  · rw [hmethods d hd, hmark]

/-- Metadata with the type of the attribute and a type `A`, which has a field and two methods. `A`,
its field and its first method carry the attribute, constructed by the method itself, by a reference
to a member of a type that is defined elsewhere, and by one to a member of the type that is defined
here. The second method carries an attribute that it constructs itself. -/
def markedMembersMetadata : ByteArray :=
  ⟨
    #[0x42, 0x53, 0x4A, 0x42, 0x01, 0x00, 0x01, 0x00, 0x00, 0x00, 0x00, 0x00, 0x04, 0x00, 0x00,
      0x00, 0x76, 0x34, 0x00, 0x00, 0x00, 0x00, 0x03, 0x00, 0x48, 0x00, 0x00, 0x00, 0xA8, 0x00,
      0x00, 0x00, 0x23, 0x7E, 0x00, 0x00, 0xF0, 0x00, 0x00, 0x00, 0x44, 0x00, 0x00, 0x00, 0x23,
      0x53, 0x74, 0x72, 0x69, 0x6E, 0x67, 0x73, 0x00, 0x00, 0x00, 0x00, 0x34, 0x01, 0x00, 0x00,
      0x08, 0x00, 0x00, 0x00, 0x23, 0x42, 0x6C, 0x6F, 0x62, 0x00, 0x00, 0x00, 0x00, 0x00, 0x00,
      0x00, 0x02, 0x00, 0x00, 0x01, 0x56, 0x14, 0x00, 0x00, 0x00, 0x00, 0x00, 0x00, 0x00, 0x00,
      0x00, 0x00, 0x00, 0x00, 0x00, 0x00, 0x01, 0x00, 0x00, 0x00, 0x02, 0x00, 0x00, 0x00, 0x01,
      0x00, 0x00, 0x00, 0x03, 0x00, 0x00, 0x00, 0x02, 0x00, 0x00, 0x00, 0x04, 0x00, 0x00, 0x00,
      0x00, 0x00, 0x21, 0x00, 0x01, 0x00, 0x00, 0x00, 0x00, 0x00, 0x21, 0x00, 0x01, 0x00, 0x00,
      0x00, 0x01, 0x00, 0x01, 0x00, 0x00, 0x00, 0x00, 0x00, 0x3C, 0x00, 0x00, 0x00, 0x00, 0x00,
      0x01, 0x00, 0x02, 0x00, 0x06, 0x00, 0x3C, 0x00, 0x01, 0x00, 0x00, 0x00, 0x00, 0x00, 0x00,
      0x00, 0x06, 0x00, 0x3E, 0x00, 0x04, 0x00, 0x01, 0x00, 0x00, 0x00, 0x00, 0x00, 0x00, 0x00,
      0x06, 0x00, 0x3C, 0x00, 0x04, 0x00, 0x01, 0x00, 0x00, 0x00, 0x00, 0x00, 0x00, 0x00, 0x06,
      0x00, 0x3C, 0x00, 0x04, 0x00, 0x01, 0x00, 0x09, 0x00, 0x3E, 0x00, 0x04, 0x00, 0x08, 0x00,
      0x3E, 0x00, 0x04, 0x00, 0x43, 0x00, 0x0A, 0x00, 0x00, 0x00, 0x21, 0x00, 0x0B, 0x00, 0x00,
      0x00, 0x40, 0x00, 0x13, 0x00, 0x00, 0x00, 0x60, 0x00, 0x1A, 0x00, 0x00, 0x00, 0x00, 0x00,
      0x00, 0x53, 0x79, 0x73, 0x74, 0x65, 0x6D, 0x2E, 0x52, 0x75, 0x6E, 0x74, 0x69, 0x6D, 0x65,
      0x2E, 0x43, 0x6F, 0x6D, 0x70, 0x69, 0x6C, 0x65, 0x72, 0x53, 0x65, 0x72, 0x76, 0x69, 0x63,
      0x65, 0x73, 0x00, 0x43, 0x6F, 0x6D, 0x70, 0x69, 0x6C, 0x65, 0x72, 0x47, 0x65, 0x6E, 0x65,
      0x72, 0x61, 0x74, 0x65, 0x64, 0x41, 0x74, 0x74, 0x72, 0x69, 0x62, 0x75, 0x74, 0x65, 0x00,
      0x41, 0x00, 0x2E, 0x63, 0x74, 0x6F, 0x72, 0x00, 0x00, 0x02, 0x06, 0x08, 0x03, 0x00, 0x00,
      0x01]⟩

/-- The law for this module: `A`, its field and its first method are marked. -/
theorem marks_exact_markedMembersMetadata :
    ∃ m, ofMetadata markedMembersMetadata = .ok m ∧
      (∀ rid, 1 ≤ rid → rid ≤ m.customAttributes.rowCount →
        (m.customAttributes.get? rid).isSome) ∧
      (∀ rid, 1 ≤ rid → rid ≤ m.typeDefs.rowCount → (m.typeDefs.get? rid).isSome) ∧
      (∀ rid, 1 ≤ rid → rid ≤ m.typeDefs.rowCount →
        ModuleTables.RunFits (m.indexed.memberCount .method) (m.indexed.startAt .method rid)
          (m.indexed.startAt .method (rid + 1))) ∧
      (∀ type ∈ (m.load none).1.types,
        (type.isGenerated = true ↔ m.Carries type.token) ∧
        (∀ f ∈ type.fields, f.isGenerated = true ↔ m.Carries f.token) ∧
        ∀ d ∈ type.methods, d.isGenerated = true ↔ m.Carries d.token) ∧
      (m.load none).1.types.map (fun type => (type.isGenerated,
          type.fields.map FieldInfo.isGenerated, type.methods.map MethodInfo.isGenerated)) =
        [(false, [], []), (true, [true], [true, false])] := by
  obtain ⟨m, hopen, htest⟩ : ∃ m, ofMetadata markedMembersMetadata = .ok m ∧
      decide ((∀ rid ∈ List.range' 1 m.customAttributes.rowCount,
          (m.customAttributes.get? rid).isSome) ∧
        (∀ rid ∈ List.range' 1 m.typeDefs.rowCount, (m.typeDefs.get? rid).isSome ∧
          ModuleTables.RunFits (m.indexed.memberCount .method) (m.indexed.startAt .method rid)
            (m.indexed.startAt .method (rid + 1))) ∧
        (m.load none).1.types.map (fun type => (type.isGenerated,
            type.fields.map FieldInfo.isGenerated, type.methods.map MethodInfo.isGenerated)) =
          [(false, [], []), (true, [true], [true, false])]) = true :=
    exists_ok_of_any (by decide +kernel)
  obtain ⟨hattributes, htypes, hmarks⟩ := of_decide_eq_true htest
  have hplace : ∀ {rid count : ℕ}, 1 ≤ rid → rid ≤ count → rid ∈ List.range' 1 count := by
    intro rid count hone hle
    rw [List.mem_range'_1]
    omega
  have hread : ∀ rid, 1 ≤ rid → rid ≤ m.customAttributes.rowCount →
      (m.customAttributes.get? rid).isSome :=
    fun rid hone hle => hattributes rid (hplace hone hle)
  have hdefined : ∀ rid, 1 ≤ rid → rid ≤ m.typeDefs.rowCount → (m.typeDefs.get? rid).isSome :=
    fun rid hone hle => (htypes rid (hplace hone hle)).1
  have hruns : ∀ rid, 1 ≤ rid → rid ≤ m.typeDefs.rowCount →
      ModuleTables.RunFits (m.indexed.memberCount .method) (m.indexed.startAt .method rid)
        (m.indexed.startAt .method (rid + 1)) :=
    fun rid hone hle => (htypes rid (hplace hone hle)).2
  exact ⟨m, hopen, hread, hdefined, hruns, marks_exact none hread hdefined hruns, hmarks⟩

end OpenModule

end TypeInventory
