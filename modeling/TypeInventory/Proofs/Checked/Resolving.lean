import TypeInventory.Proofs.Checked.Rows
import TypeInventory.Proofs.Module.Completeness
import TypeInventory.Proofs.Signature.Accepted

set_option relaxedAutoImplicit false
set_option autoImplicit false

/-!
# Resolving types, checked

Types are resolved by going from row numbers and places of members to the next ones: the number
behind that of a row, the place behind the last member, the position behind that of a parameter.
They all have 32 bits. None of them runs over, since a table of an opened module has less than
`2 ^ 31` rows and a signature less than `2 ^ 29` parameters.

## Main definitions

* `Checked.Resolving` — resolutions whose operations are checked; a monad.
* `ModuleTables.checkedMemberRun`, `ModuleTables.checkedMethodOwner?` — members of owners.
* `MetadataModule.checkedResolveMethod`, `MetadataModule.checkedResolveType`,
  `MetadataModule.checkedOutcomes` — methods and types.
* `OpenModule.InRange` — all operations on an opened module stay in range.

## Main results

* `MethodSig.length_params_lt` — how many parameters a signature may have.
* `OpenModule.loading_in_range` — no operation of loading a module leaves its range.
-/

namespace TypeInventory

namespace Checked

/-! ## Checked resolutions -/

/-- A resolution whose operations are checked. It is nothing as soon as one is out of range. -/
def Resolving (α : Type) : Type :=
  Option (Resolution α)

namespace Resolving

variable {α β : Type}

/-- A resolution that takes no operation. -/
def settled (x : Resolution α) : Resolving α :=
  some x

/-- One resolution after another. The second does not take place if the first one fails. -/
protected def bind (x : Resolving α) (f : α → Resolving β) : Resolving β :=
  match x with
  | none => none
  | some r =>
    match r.result with
    | .ok a =>
      match f a with
      | none => none
      | some s => settled ⟨r.warnings ++ s.warnings, s.result⟩
    | .error e => settled ⟨r.warnings, .error e⟩

instance : Monad Resolving where
  pure a := settled (pure a)
  bind := Resolving.bind

/-- A program without warnings. -/
def ofProgram (x : ExceptT Fault Option α) : Resolving α :=
  match x.run with
  | none => none
  | some result => settled (.ofExcept result)

instance : MonadLift Resolution Resolving :=
  ⟨settled⟩

instance : MonadLift (ExceptT Fault Option) Resolving :=
  ⟨ofProgram⟩

/-- Resolves the members of a list in order, up to the first that fails. -/
def forEach (f : α → Resolving β) : List α → Resolving (List β)
  | [] => pure []
  | a :: as => do
    let b ← f a
    let bs ← forEach f as
    return b :: bs

/-- An operation in range goes on with its value. -/
lemma value_bind (a : α) (f : α → Resolving β) :
    (liftM (some a) : Resolving α) >>= f = f a := by
  change (match f a with
    | none => none
    | some s => settled ⟨s.warnings, s.result⟩) = f a
  cases f a <;> rfl

/-- One resolution after another takes no operation out of range, if none does. -/
lemma settled_bind {x : Resolution α} {f : α → Resolving β} {g : α → Resolution β}
    (h : ∀ a, x.result = .ok a → f a = settled (g a)) :
    settled x >>= f = settled (x >>= g) := by
  change Resolving.bind (settled x) f = settled (Resolution.bind x g)
  unfold Resolving.bind Resolution.bind settled
  cases hx : x.result with
  | ok a =>
    have hf : f a = settled (g a) := h a hx
    simp only [hx, hf]
    rfl
  | error e =>
    simp only [hx]
    rfl

/-- Resolving the members of a list takes no operation out of range, if none of them does. -/
lemma forEach_settled {f : α → Resolving β} {g : α → Resolution β} (h : ∀ a, f a = settled (g a))
    (as : List α) : forEach f as = settled (Resolution.forEach g as) := by
  induction as with
  | nil => rfl
  | cons a as ih =>
    rw [forEach, Resolution.forEach_cons, h, ih]
    refine settled_bind fun b _ => ?_
    exact settled_bind fun bs _ => rfl

end Resolving

/-- Programs for all members of a list take no operation out of range, if none of them does. -/
lemma mapM_plain {α β : Type} {f : α → ExceptT Fault Option β} {g : α → Except Fault β}
    {as : List α} (h : ∀ a ∈ as, f a = plain (g a)) : as.mapM f = plain (as.mapM g) := by
  induction as with
  | nil => rfl
  | cons a as ih =>
    rw [List.forall_mem_cons] at h
    rw [List.mapM_cons, List.mapM_cons, h.1, ih h.2]
    refine plain_bind fun b _ => ?_
    exact plain_bind fun bs _ => rfl

end Checked

open Checked Resolving

/-! ## Parameters of signatures -/

/-- A signature has less than `2 ^ 29` parameters: what is accepted fits the format. -/
lemma MethodSig.length_params_lt {blob : ByteArray} {sig : MethodSig}
    (h : MethodSig.ofBlob blob = .ok sig) : sig.params.length < 2 ^ 29 := by
  unfold ofBlob SignatureReader.runOn at h
  split at h
  next sig' s' hrun =>
    cases h
    exact ((SignatureReader.meets_method _).of_run_eq_ok hrun).storable.fits.paramCount
  next => cases h

/-! ## Members of owners -/

namespace ModuleTables

/-- Tables in which the numbers behind those of all rows and members have 32 bits. -/
structure Numbered (m : ModuleTables) : Prop where
  /-- The number behind that of the last type. -/
  typeDefs : m.typeDefs.rowCount + 1 < 2 ^ 32
  /-- The number behind that of the last method. -/
  methods : m.methods.rowCount + 1 < 2 ^ 32
  /-- The place behind the last member of a list. -/
  members : ∀ list, m.memberCount list + 1 < 2 ^ 32

/-- The rows of the members that `owner` owns, if its run starts at `start` and the next one, if
there is one, at `next?`. -/
def checkedMemberRun (m : ModuleTables) (list : MemberList) (owner : Token) (start : ℕ)
    (next? : Option ℕ) : Resolving (List ℕ) := do
  let count := m.memberCount list
  let behind ← add 32 count 1
  let stop := next?.getD behind
  let warning := runWarning list owner start stop count
  if start = 0 ∨ behind < start ∨ stop < start then
    settled (.withWarnings [warning] [])
  else if behind < stop then
    settled (.withWarnings [warning] (m.membersBetween list start behind))
  else
    settled (.withWarnings [] (m.membersBetween list start stop))

/-- The type whose run of methods holds a method; the first one, if several do. -/
def checkedMethodOwner? (m : ModuleTables) (method : ℕ) : List TypeDefRow → Option (Option ℕ)
  | [] => some none
  | row :: rows => do
    let behind ← add 32 (m.memberCount .method) 1
    let stop := (rows.head?.map TypeDefRow.methodList).getD behind
    if m.runHolds row.methodList stop method then
      some (some row.rid)
    else
      checkedMethodOwner? m method rows

variable {m : ModuleTables}

/-- Cutting a run of members leaves no range. -/
lemma checkedMemberRun_eq (h : m.Numbered) (list : MemberList) (owner : Token) (start : ℕ)
    (next? : Option ℕ) :
    m.checkedMemberRun list owner start next? = settled (m.memberRun list owner start next?) := by
  unfold checkedMemberRun memberRun
  simp only [add_of_lt (h.members list), value_bind]
  split_ifs <;> rfl

/-- The run of the first type stops where that of the second one starts, if there is one. -/
lemma methodRuns_cons (m : ModuleTables) (row : TypeDefRow) (rows : List TypeDefRow) :
    m.methodRuns (row :: rows) =
      (row.rid, row.methodList,
        (rows.head?.map TypeDefRow.methodList).getD (m.memberCount .method + 1)) ::
        m.methodRuns rows := by
  cases rows <;> rfl

/-- Finding the owner of a method leaves no range. By induction on the types that may own it. -/
lemma checkedMethodOwner?_eq (h : m.Numbered) (method : ℕ) (rows : List TypeDefRow) :
    m.checkedMethodOwner? method rows = some (m.methodOwner? (m.methodRuns rows) method) := by
  induction rows with
  | nil => rfl
  | cons row rows ih =>
    rw [checkedMethodOwner?, add_of_lt (h.members .method), methodRuns_cons, methodOwner?,
      List.find?_cons]
    simp only [Option.bind_eq_bind, Option.bind_some]
    cases m.runHolds row.methodList
      ((rows.head?.map TypeDefRow.methodList).getD (m.memberCount .method + 1)) method with
    | true => rfl
    | false => exact ih

end ModuleTables

/-! ## Methods and types -/

namespace MetadataModule

variable (m : MetadataModule)

/-- The parameters of a method, with the names and the flags of the rows about their positions. -/
def checkedParams (scope : GenericScope) (rows : Std.TreeMap ℕ ParamRow) (params : List ParamSig) :
    ExceptT Fault Option (List ParameterInfo) :=
  params.zipIdx.mapM fun (param, index) => do
    let position ← add 32 index 1
    plain (m.resolveParam scope rows param position)

/-- The method in row `rid` of a type with the given generic parameters; nothing for a
constructor. -/
def checkedResolveMethod (typeParameters : List String) (rid : ℕ) :
    Resolving (Option MethodInfo) := do
  match m.methods.get? rid with
  | none => settled (.ofExcept (throw (.malformed (.missingMethod rid))))
  | some row =>
    let name ← (m.strings.get row.name : Resolution String)
    if constructorNames.contains name then
      return none
    let blob ← (m.blobs.get row.signature : Resolution ByteArray)
    let sig ← (MethodSig.ofBlob blob : Resolution MethodSig)
    let genericParameters := (m.methodGenerics[rid]?).getD []
    let scope : GenericScope := ⟨typeParameters, genericParameters⟩
    let returnType ← (m.paramName scope sig.returns : Resolution TypeName)
    let nextRid ← add 32 rid 1
    let next? ← m.methods.checkedGet? nextRid
    let run ← m.checkedMemberRun .param row.token row.paramList (next?.map MethodDefRow.paramList)
    let parameters ← m.checkedParams scope (m.paramsByPosition run) sig.params
    return some {
      name
      token := row.token
      returnType
      parameters
      access := .ofAttributes row.flags
      isStatic := row.flags.testBit staticBit
      inheritance := .ofFlags (row.flags.testBit virtualBit) (row.flags.testBit finalBit)
        (row.flags.testBit abstractBit)
      genericParameters
      isGenerated := m.isGenerated row.token }

/-- The type of a row, with its members; nothing for the type that holds what belongs to no
type. -/
def checkedResolveType (row : TypeDefRow) : Resolving (Option TypeInfo) := do
  let name ← (m.strings.get row.typeName : Resolution String)
  if name = moduleTypeName then
    return none
  let fullName ← (m.fullName row.rid : Resolution String)
  let kind ← (m.typeKind row : Resolution TypeKind)
  let typeParameters := (m.typeGenerics[row.rid]?).getD []
  let nextRid ← add 32 row.rid 1
  let next? ← m.typeDefs.checkedGet? nextRid
  let fieldRows ← m.checkedMemberRun .field row.token row.fieldList
    (next?.map TypeDefRow.fieldList)
  let fields ← forEach
    (fun rid => settled (.ofExcept (m.resolveField typeParameters rid))) fieldRows
  let methodRows ← m.checkedMemberRun .method row.token row.methodList
    (next?.map TypeDefRow.methodList)
  let methods ← forEach (m.checkedResolveMethod typeParameters) methodRows
  return some {
    name
    fullName
    token := row.token
    kind
    methods := methods.filterMap id
    fields
    isGenerated := m.isGenerated row.token }

/-- All type definitions with what became of them. -/
def checkedOutcomes : Option (List TypeOutcome) := do
  let rows ← m.typeDefs.checkedRows
  rows.mapM fun row => (m.checkedResolveType row).map (⟨row, ·⟩)

variable {m}

/-- The position of a parameter is far from 32 bits as a number. -/
lemma checkedParams_eq (scope : GenericScope) (rows : Std.TreeMap ℕ ParamRow)
    {params : List ParamSig} (h : params.length < 2 ^ 29) :
    m.checkedParams scope rows params =
      plain ((params.zipIdx 1).mapM fun (param, position) =>
        m.resolveParam scope rows param position) := by
  have hpositions : params.zipIdx 1 = params.zipIdx.map fun p => (p.1, p.2 + 1) := by
    rw [List.zipIdx_succ]
  rw [hpositions, List.mapM_map]
  refine mapM_plain fun p hp => ?_
  have hindex : p.2 < params.length := by
    have hbounds := List.mem_zipIdx hp
    omega
  change (liftM (add 32 p.2 1) : ExceptT Fault Option ℕ) >>= _ = _
  rw [add_of_lt (by omega)]
  rfl

/-- Resolving a method leaves no range: a row whose number has one behind it is there. -/
lemma checkedResolveMethod_eq (h : m.Numbered) (typeParameters : List String) (rid : ℕ) :
    m.checkedResolveMethod typeParameters rid = settled (m.resolveMethod typeParameters rid) := by
  unfold checkedResolveMethod resolveMethod
  cases hrow : m.methods.get? rid with
  | none => rfl
  | some row =>
    have hmethods := h.methods
    have hrid : rid ≤ m.methods.rowCount := by
      obtain ⟨⟨-, hle⟩, -⟩ := (@Table.get?_eq_some_iff .methodDef m.methods rid row).mp hrow
      exact hle
    simp only
    refine settled_bind fun name _ => ?_
    split_ifs with hconstructor
    · rfl
    · refine settled_bind fun blob _ => ?_
      refine settled_bind fun sig hsig => ?_
      refine settled_bind fun returnType _ => ?_
      rw [add_of_lt (by omega), value_bind, Table.checkedGet?_eq (by omega), value_bind,
        ModuleTables.checkedMemberRun_eq h]
      refine settled_bind fun run _ => ?_
      rw [checkedParams_eq _ _ (MethodSig.length_params_lt hsig)]
      exact settled_bind fun parameters _ => rfl

/-- Resolving a type leaves no range, if its row is one of the table. -/
lemma checkedResolveType_eq (h : m.Numbered) {row : TypeDefRow}
    (hrow : row.rid ≤ m.typeDefs.rowCount) :
    m.checkedResolveType row = settled (m.resolveType row) := by
  have htypes := h.typeDefs
  unfold checkedResolveType resolveType
  refine settled_bind fun name _ => ?_
  split_ifs with hmodule
  · rfl
  · refine settled_bind fun fullName _ => ?_
    refine settled_bind fun kind _ => ?_
    simp only
    rw [add_of_lt (by omega), value_bind, Table.checkedGet?_eq (by omega), value_bind,
      ModuleTables.checkedMemberRun_eq h]
    refine settled_bind fun fieldRows _ => ?_
    rw [forEach_settled fun _ => rfl]
    refine settled_bind fun fields _ => ?_
    rw [ModuleTables.checkedMemberRun_eq h]
    refine settled_bind fun methodRows _ => ?_
    rw [forEach_settled (checkedResolveMethod_eq h _)]
    exact settled_bind fun methods _ => rfl

/-- Resolving all types leaves no range. -/
lemma checkedOutcomes_eq (h : m.Numbered)
    (hrows : ∀ row ∈ m.typeDefs.rows, row.rid ≤ m.typeDefs.rowCount) :
    m.checkedOutcomes = some m.outcomes := by
  have htypes := h.typeDefs
  have hall : ∀ rows : List TypeDefRow, (∀ row ∈ rows, row.rid ≤ m.typeDefs.rowCount) →
      rows.mapM (fun row => (m.checkedResolveType row).map (TypeOutcome.mk row)) =
        some (rows.map fun row => ⟨row, m.resolveType row⟩) := by
    intro rows hrows
    induction rows with
    | nil => rfl
    | cons row rows ih =>
      rw [List.forall_mem_cons] at hrows
      rw [List.mapM_cons, checkedResolveType_eq h hrows.1, ih hrows.2]
      rfl
  unfold checkedOutcomes
  rw [Table.checkedRows_eq (by omega)]
  exact hall _ hrows

end MetadataModule

/-! ## Modules -/

namespace OpenModule

/-- All operations on an opened module stay in range: they give what the module gives, whatever they
are asked for. Names, signatures and single rows are asked for at many places; since they are in
range for every place in a heap and every number, the fields about methods and types follow only the
sums that are made of row numbers, places and positions. -/
structure InRange (m : OpenModule) : Prop where
  /-- The parts of the heap of strings. -/
  strings : ∀ index, m.strings.checkedGet index = plain (m.strings.get index)
  /-- The parts of the heap of blobs. -/
  blobs : ∀ index, m.blobs.checkedGet index = plain (m.blobs.get index)
  /-- The product that leads to a row. -/
  rowByNumber : ∀ (kind : RowKind) (rid : ℕ),
    (m.tables.table kind.Row).checkedGet? rid = some ((m.tables.table kind.Row).get? rid)
  /-- The number of the next row of a walk, wherever it stands. -/
  nextRow : ∀ (kind : RowKind) (w : Walk kind.Row),
    w.table = m.tables.table kind.Row → w.checkedNext = some w.next
  /-- The numbers of all rows in order. -/
  rowsInOrder : ∀ kind : RowKind,
    (m.tables.table kind.Row).checkedRows = some (m.tables.table kind.Row).rows
  /-- The place behind the last member. -/
  memberRun : ∀ list owner start next?,
    m.indexed.checkedMemberRun list owner start next? =
      settled (m.indexed.memberRun list owner start next?)
  /-- The place behind the last method, when the owner of a method is sought. -/
  methodOwner : ∀ method rows,
    m.indexed.checkedMethodOwner? method rows =
      some (m.indexed.methodOwner? (m.indexed.methodRuns rows) method)
  /-- The number behind that of a method, and the positions of its parameters. -/
  resolveMethod : ∀ typeParameters rid,
    m.indexed.checkedResolveMethod typeParameters rid =
      settled (m.indexed.resolveMethod typeParameters rid)
  /-- The number behind that of a type. -/
  resolveType : ∀ row ∈ m.indexed.typeDefs.rows,
    m.indexed.checkedResolveType row = settled (m.indexed.resolveType row)
  /-- Everything that happens while all types are resolved. -/
  outcomes : m.indexed.checkedOutcomes = some m.indexed.outcomes

section Opened

variable {metadata : ByteArray} {m : OpenModule}

/-- The rows and members of an opened module can be numbered with 32 bits, and one more. -/
lemma numbered (h : ofMetadata metadata = .ok m) : m.indexed.Numbered := by
  have hcount : ∀ t, m.tables.layout.rowCount t < 2 ^ 31 := rowCount_lt h
  refine ⟨?_, ?_, fun list => ?_⟩
  · have htypes : m.indexed.typeDefs.rowCount < 2 ^ 31 := hcount .typeDef
    omega
  · have hmethods : m.indexed.methods.rowCount < 2 ^ 31 := hcount .methodDef
    omega
  · have hmembers : m.indexed.memberCount list < 2 ^ 31 := by
      unfold ModuleTables.memberCount
      cases list with
      | field =>
        simp only
        split_ifs
        · exact hcount .field
        · exact hcount .fieldPtr
      | method =>
        simp only
        split_ifs
        · exact hcount .methodDef
        · exact hcount .methodPtr
      | param =>
        simp only
        split_ifs
        · exact hcount .param
        · exact hcount .paramPtr
    omega

/-- All operations on an opened module stay in range. -/
lemma inRange (h : ofMetadata metadata = .ok m) : m.InRange := by
  have hnumbered := numbered h
  have hcount : ∀ kind : RowKind, (m.tables.table kind.Row).rowCount < 2 ^ 32 := fun kind =>
    Nat.lt_trans (rowCount_lt h _) (by decide)
  have hrid : ∀ row ∈ m.indexed.typeDefs.rows, row.rid ≤ m.indexed.typeDefs.rowCount :=
    fun row hrow => Nat.le_trans (rid_of_mem_rows hrow).2 (length_rows_le m)
  exact {
    strings := m.strings.checkedGet_eq
    blobs := m.blobs.checkedGet_eq
    rowByNumber := fun kind rid => Table.checkedGet?_eq (hcount kind) rid
    nextRow := fun kind w hw => Walk.checkedNext_eq (hw ▸ hcount kind)
    rowsInOrder := fun kind => Table.checkedRows_eq (hcount kind)
    memberRun := ModuleTables.checkedMemberRun_eq hnumbered
    methodOwner := ModuleTables.checkedMethodOwner?_eq hnumbered
    resolveMethod := MetadataModule.checkedResolveMethod_eq hnumbered
    resolveType := fun row hrow => MetadataModule.checkedResolveType_eq hnumbered (hrid row hrow)
    outcomes := MetadataModule.checkedOutcomes_eq hnumbered hrid }

end Opened

/-- **No operation of loading a module leaves its range**, whatever bytes are given as metadata:
while the module is opened, all parts lie within what they are parts of, and all sums fit in 32 or 8
bits; and whatever an opened module is asked for, the same holds.

**Proof sketch.** While opening, each part is taken behind the check that it is there. An opened
module has less than `2 ^ 31` rows in each table (`rowCount_lt`), so that a row number, a place of
a member and the number behind it have 32 bits, and the product of a row number with a width has 64.
A signature has less than `2 ^ 29` parameters (`MethodSig.length_params_lt`). -/
theorem loading_in_range (metadata : ByteArray) :
    checkedOfMetadata metadata = plain (ofMetadata metadata) ∧
      ∀ m, ofMetadata metadata = .ok m → m.InRange :=
  ⟨checkedOfMetadata_eq metadata, fun _ h => inRange h⟩

/-- Metadata with a type that has a field and a method with one parameter. -/
def oneMethodMetadata : ByteArray :=
  ⟨
    #[0x42, 0x53, 0x4A, 0x42, 0x01, 0x00, 0x01, 0x00, 0x00, 0x00, 0x00, 0x00, 0x04, 0x00, 0x00,
      0x00, 0x76, 0x34, 0x00, 0x00, 0x00, 0x00, 0x03, 0x00, 0x48, 0x00, 0x00, 0x00, 0x50, 0x00,
      0x00, 0x00, 0x23, 0x7E, 0x00, 0x00, 0x98, 0x00, 0x00, 0x00, 0x09, 0x00, 0x00, 0x00, 0x23,
      0x53, 0x74, 0x72, 0x69, 0x6E, 0x67, 0x73, 0x00, 0x00, 0x00, 0x00, 0xA1, 0x00, 0x00, 0x00,
      0x09, 0x00, 0x00, 0x00, 0x23, 0x42, 0x6C, 0x6F, 0x62, 0x00, 0x00, 0x00, 0x00, 0x00, 0x00,
      0x00, 0x02, 0x00, 0x00, 0x01, 0x54, 0x01, 0x00, 0x00, 0x00, 0x00, 0x00, 0x00, 0x00, 0x00,
      0x00, 0x00, 0x00, 0x00, 0x00, 0x00, 0x01, 0x00, 0x00, 0x00, 0x01, 0x00, 0x00, 0x00, 0x01,
      0x00, 0x00, 0x00, 0x01, 0x00, 0x00, 0x00, 0x00, 0x00, 0x00, 0x00, 0x01, 0x00, 0x00, 0x00,
      0x00, 0x00, 0x01, 0x00, 0x01, 0x00, 0x01, 0x00, 0x03, 0x00, 0x01, 0x00, 0x00, 0x00, 0x00,
      0x00, 0x00, 0x00, 0x00, 0x00, 0x05, 0x00, 0x04, 0x00, 0x01, 0x00, 0x02, 0x00, 0x01, 0x00,
      0x07, 0x00, 0x00, 0x54, 0x00, 0x66, 0x00, 0x4D, 0x00, 0x61, 0x00, 0x00, 0x02, 0x06, 0x08,
      0x04, 0x00, 0x01, 0x01, 0x08]⟩

/-- The law for this module, also where numbers and places are as large as 32 bits allow. -/
theorem loading_in_range_oneMethodMetadata :
    ∃ m, checkedOfMetadata oneMethodMetadata = plain (.ok m) ∧ m.InRange ∧
      (m.tables.table MethodDefRow).checkedGet? (2 ^ 32 - 1) = some none ∧
      m.strings.checkedGet (2 ^ 32 - 1) = plain (.error .outOfBounds) ∧
      m.indexed.checkedMemberRun .param (TableId.methodDef.token 1) (2 ^ 32 - 1) none =
        settled (.withWarnings
          [runWarning .param (TableId.methodDef.token 1) (2 ^ 32 - 1) 2 1] []) ∧
      m.indexed.checkedMethodOwner? 1 m.typeDefs.rows = some (some 1) ∧
      (∃ info, m.indexed.checkedResolveMethod [] 1 = settled ⟨[], .ok (some info)⟩ ∧
        info.parameters.map ParameterInfo.name = ["a"]) ∧
      m.indexed.checkedOutcomes.map List.length = some 1 := by
  obtain ⟨m, hopen, htest⟩ : ∃ m, ofMetadata oneMethodMetadata = .ok m ∧
      decide ((m.tables.table MethodDefRow).get? (2 ^ 32 - 1) = none ∧
        m.strings.get (2 ^ 32 - 1) = .error .outOfBounds ∧ m.indexed.memberCount .param = 1 ∧
        m.indexed.methodOwner? (m.indexed.methodRuns m.typeDefs.rows) 1 = some 1 ∧
        (m.indexed.resolveMethod [] 1).warnings = [] ∧
        (m.indexed.resolveMethod [] 1).result.toOption.any (fun info? =>
          info?.any fun info => info.parameters.map ParameterInfo.name = ["a"]) ∧
        m.indexed.outcomes.length = 1) = true :=
    exists_ok_of_any (by decide +kernel)
  obtain ⟨hrow, hstring, hcount, howner, hwarnings, hlisted, houtcomes⟩ := of_decide_eq_true htest
  obtain ⟨hchecked, hopened⟩ := loading_in_range oneMethodMetadata
  have hrange := hopened m hopen
  refine ⟨m, hopen ▸ hchecked, hrange, ?_, ?_, ?_, ?_, ?_, ?_⟩
  · exact (hrange.rowByNumber .methodDef _).trans (congrArg some hrow)
  · rw [hrange.strings, hstring]
  · rw [hrange.memberRun, ModuleTables.memberRun, hcount]
    rfl
  · rw [hrange.methodOwner, howner]
  · obtain ⟨info?, hresult, hinfo⟩ := exists_ok_of_any hlisted
    obtain ⟨info, rfl, hname⟩ := (Option.any_eq_true _ _).mp hinfo
    refine ⟨info, ?_, of_decide_eq_true hname⟩
    rw [hrange.resolveMethod, ← hwarnings, ← hresult]
  · rw [hrange.outcomes, Option.map_some, houtcomes]

end OpenModule

end TypeInventory
