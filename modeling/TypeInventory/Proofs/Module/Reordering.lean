import TypeInventory.Proofs.Module.Parameters

set_option relaxedAutoImplicit false
set_option autoImplicit false

/-!
# Members in other rows

Without pointers, the members of a list lie in the order of their rows. With pointers, they may lie
in any order, and the pointers say where. This module proves that the order of rows then makes no
difference: when fields and parameters are moved to other rows, and pointers lead to where they
went, types are resolved to the same, with the same warnings and the same failures. Only the tokens
of fields tell where these lie now.

## Main definitions

* `Resolution.Related` — two resolutions with the same warnings, and with the same failure or with
  related values.
* `MetadataModule.MovesMembers` — a module with the members of another one in other rows.
* `FieldInfo.MovedBy`, `TypeInfo.MovedBy` — what then becomes of fields and types.

## Main results

* `Resolution.Related.bind`, `Resolution.Related.forEach` — relations are kept step by step.
* `MetadataModule.MovesMembers.resolveMethod_eq` — methods are resolved to the same.
* `OpenModule.resolveType_movesMembers` — types are resolved to the same, but for tokens of fields.
-/

namespace TypeInventory

/-! ## Related resolutions -/

namespace Resolution

variable {α α' β β' : Type}

/-- Two resolutions give the same warnings. Both of them fail alike, or their values are related. -/
def Related (r : α → α' → Prop) (x : Resolution α) (x' : Resolution α') : Prop :=
  x'.warnings = x.warnings ∧
    ((∃ e, x.result = .error e ∧ x'.result = .error e) ∨
      ∃ a a', x.result = .ok a ∧ x'.result = .ok a' ∧ r a a')

/-- Related values are resolved without warnings. -/
lemma Related.pure {r : α → α' → Prop} {a : α} {a' : α'} (h : r a a') :
    Related r (Pure.pure a) (Pure.pure a') :=
  ⟨rfl, .inr ⟨a, a', rfl, rfl, h⟩⟩

/-- Related first steps with related second steps behind them are related. -/
lemma Related.bind {r : α → α' → Prop} {s : β → β' → Prop} {x : Resolution α} {x' : Resolution α'}
    {f : α → Resolution β} {f' : α' → Resolution β'} (h : Related r x x')
    (hnext : ∀ a a', r a a' → Related s (f a) (f' a')) : Related s (x >>= f) (x' >>= f') := by
  show Related s (Resolution.bind x f) (Resolution.bind x' f')
  unfold Resolution.bind
  obtain ⟨hwarnings, ⟨e, hx, hx'⟩ | ⟨a, a', hx, hx', hr⟩⟩ := h
  · rw [hx, hx']
    exact ⟨hwarnings, .inl ⟨e, rfl, rfl⟩⟩
  · rw [hx, hx']
    obtain ⟨hnextWarnings, hresults⟩ := hnext a a' hr
    exact ⟨by simp only [hwarnings, hnextWarnings], hresults⟩

/-- The same first step with related second steps behind it is related. -/
lemma Related.bind_same {s : β → β' → Prop} (x : Resolution α) {f : α → Resolution β}
    {f' : α → Resolution β'} (hnext : ∀ a, Related s (f a) (f' a)) :
    Related s (x >>= f) (x >>= f') := by
  have hsame : Related Eq x x := by
    refine ⟨rfl, ?_⟩
    cases hx : x.result with
    | error e => exact .inl ⟨e, rfl, rfl⟩
    | ok a => exact .inr ⟨a, a, rfl, rfl, rfl⟩
  exact hsame.bind fun a a' ha => ha ▸ hnext a

/-- Resolving two lists is related if it is so for each pair of members.

**Proof sketch.** By induction on the pairs, along the steps of `Resolution.forEach_cons`. -/
lemma Related.forEach {r : β → β' → Prop} {f : α → Resolution β} {f' : α' → Resolution β'}
    {as : List α} {as' : List α'} (h : List.Forall₂ (fun a a' => Related r (f a) (f' a')) as as') :
    Related (List.Forall₂ r) (forEach f as) (forEach f' as') := by
  induction h with
  | nil => exact .pure .nil
  | cons ha _ ih =>
    rw [forEach_cons, forEach_cons]
    exact ha.bind fun b b' hb => ih.bind fun bs bs' hbs => .pure (.cons hb hbs)

end Resolution

/-! ## Moved members -/

/-- A field is the same, but that it lies in another row: instead of the token of one of the given
rows it has that of the row to which this one was moved. -/
def FieldInfo.MovedBy (p : Equiv.Perm ℕ) (rows : List ℕ) (f f' : FieldInfo) : Prop :=
  ∃ i ∈ rows, f.token = TableId.field.token i ∧ f' = { f with token := TableId.field.token (p i) }

/-- A type is the same, but that its fields lie in other rows. -/
structure TypeInfo.MovedBy (p : Equiv.Perm ℕ) (rows : List ℕ) (t t' : TypeInfo) : Prop where
  /-- Its fields are the same in other rows, in the same order. -/
  fields : List.Forall₂ (FieldInfo.MovedBy p rows) t.fields t'.fields
  /-- All the rest is the same. -/
  rest : t' = { t with fields := t'.fields }

/-- What is read alike from fields and from where they were moved is the same for all of them. -/
lemma TypeInfo.MovedBy.map_fields_eq {α : Type} {p : Equiv.Perm ℕ} {rows : List ℕ}
    {t t' : TypeInfo} {g g' : FieldInfo → α} (h : t.MovedBy p rows t')
    (hg : ∀ f f', FieldInfo.MovedBy p rows f f' → g' f' = g f) :
    t'.fields.map g' = t.fields.map g := by
  have hall : ∀ {fs fs' : List FieldInfo}, List.Forall₂ (FieldInfo.MovedBy p rows) fs fs' →
      fs'.map g' = fs.map g := by
    intro fs fs' hfields
    induction hfields with
    | nil => rfl
    | cons hf _ ih => rw [List.map_cons, List.map_cons, ih, hg _ _ hf]
  exact hall h.fields

/-- The places of a list lead to its rows in order in one module, and in the other one to where the
rows were moved. -/
structure ModuleTables.MovesList (m m' : ModuleTables) (list : MemberList) (σ : Equiv.Perm ℕ) :
    Prop where
  /-- The lists are of the same length. -/
  count : m'.memberCount list = m.memberCount list
  /-- A place leads to the row with its number. -/
  direct : ∀ place, m.memberAt? list place = some place
  /-- In the other module, a place leads to where this row was moved. -/
  moved : ∀ place, 1 ≤ place → place ≤ m.memberCount list →
    m'.memberAt? list place = some (σ place)

namespace ModuleTables.MovesList

variable {m m' : ModuleTables} {list : MemberList} {σ : Equiv.Perm ℕ}

/-- Rows are moved where one module has no pointers, and the other one has one for each row. -/
lemma of_pointers {count count' ptrs : ℕ} {pointed? : ℕ → Option ℕ}
    (hcount : m.memberCount list = count) (hdirect : ∀ place, m.memberAt? list place = some place)
    (hcount' : m'.memberCount list = if ptrs = 0 then count' else ptrs)
    (hpointed : ∀ place, m'.memberAt? list place = if ptrs = 0 then some place else pointed? place)
    (hrows : count' = count) (hptrs : ptrs = count)
    (hmoved : ∀ place, 1 ≤ place → place ≤ count → pointed? place = some (σ place)) :
    m.MovesList m' list σ := by
  subst hrows hptrs
  refine ⟨by rw [hcount', hcount, ite_self], hdirect, fun place hone hle => ?_⟩
  rw [hcount] at hle
  rw [hpointed, if_neg (by omega), hmoved place hone hle]

/-- The members at covered places are moved. -/
lemma filterMap_memberAt?_eq (h : m.MovesList m' list σ) (start stop : ℕ) :
    (coveredPlaces (m.memberCount list) start stop).filterMap (m'.memberAt? list) =
      ((coveredPlaces (m.memberCount list) start stop).filterMap (m.memberAt? list)).map σ := by
  have hdirect : ∀ place ∈ coveredPlaces (m.memberCount list) start stop,
      m.memberAt? list place = some place := fun place _ => h.direct place
  have hmoved : ∀ place ∈ coveredPlaces (m.memberCount list) start stop,
      m'.memberAt? list place = (some ∘ σ) place := fun place hplace =>
    h.moved place (mem_coveredPlaces hplace).1 (mem_coveredPlaces hplace).2
  rw [List.filterMap_congr hdirect, List.filterMap_congr hmoved, List.filterMap_eq_map,
    List.filterMap_some]

/-- Without pointers, members are rows of the list. -/
lemma mem_range_of_mem (h : m.MovesList m' list σ) {rid i : ℕ} (hi : i ∈ m.membersOf list rid) :
    1 ≤ i ∧ i ≤ m.memberCount list := by
  obtain ⟨place, hplace, hat⟩ := List.mem_filterMap.mp hi
  rw [h.direct] at hat
  exact Option.some.inj hat ▸ mem_coveredPlaces hplace

section Owners

variable (h : m.MovesList m' list σ)
  (howners : ∀ rid, (m'.owners list).get? rid = (m.owners list).get? rid)
include h howners

/-- The members of an owner are moved. -/
lemma membersOf_eq (rid : ℕ) : m'.membersOf list rid = (m.membersOf list rid).map σ := by
  have hstarts := startAt_congr howners h.count
  rw [membersOf, membersOf, h.count, hstarts, hstarts, h.filterMap_memberAt?_eq]

/-- **The run of an owner is moved**, and leaves the same warnings. -/
lemma related_runOf {rid : ℕ} {row : list.ownerKind.Row}
    (hrow : (m.owners list).get? rid = some row) :
    Resolution.Related (fun rows rows' => rows = m.membersOf list rid ∧ rows' = rows.map σ)
      (m.runOf list row) (m'.runOf list row) := by
  have hstarts := startAt_congr howners h.count
  rw [runOf_eq_withWarnings hrow, runOf_eq_withWarnings ((howners rid).trans hrow), h.count,
    hstarts, hstarts, h.membersOf_eq howners]
  exact ⟨rfl, .inr ⟨_, _, rfl, rfl, rfl, rfl⟩⟩

end Owners

end ModuleTables.MovesList

namespace MetadataModule

/-- A module holds the members of another one, which has no pointers, in other rows: field `i` lies
in row `p i` and parameter `j` in row `q j`, and pointers lead there. The marks of fields have moved
with them. -/
structure MovesMembers (m m' : MetadataModule) (p q : Equiv.Perm ℕ) : Prop
    extends m.SameTypesAndMethods m' where
  /-- There are equally many fields. -/
  fieldCount : m'.fields.rowCount = m.fields.rowCount
  /-- Each field lies in the row to which it was moved. -/
  fields : ∀ i row, m.fields.get? i = some row →
    m'.fields.get? (p i) = some { row with rid := p i }
  /-- There is a pointer for each field. -/
  fieldPtrCount : m'.fieldPtrs.rowCount = m.fields.rowCount
  /-- The pointers lead to where fields were moved. -/
  fieldPtrs : ∀ i, 1 ≤ i → i ≤ m.fields.rowCount → m'.fieldPtrs.get? i = some ⟨i, p i⟩
  /-- Fields carry the mark of compiler-made code where they lie. -/
  fieldMarks : ∀ i row, m.fields.get? i = some row →
    m'.isGenerated (TableId.field.token (p i)) = m.isGenerated (TableId.field.token i)
  /-- There are equally many parameters. -/
  paramCount : m'.params.rowCount = m.params.rowCount
  /-- Each parameter lies in the row to which it was moved. -/
  params : ∀ j row, m.params.get? j = some row →
    m'.params.get? (q j) = some { row with rid := q j }
  /-- There is a pointer for each parameter. -/
  paramPtrCount : m'.paramPtrs.rowCount = m.params.rowCount
  /-- The pointers lead to where parameters were moved. -/
  paramPtrs : ∀ j, 1 ≤ j → j ≤ m.params.rowCount → m'.paramPtrs.get? j = some ⟨j, q j⟩

/-- A field has the token of its row. -/
lemma token_of_get?_fields {m : MetadataModule} {i : ℕ} {row : FieldRow}
    (hrow : m.fields.get? i = some row) : row.token = TableId.field.token i := by
  obtain ⟨-, -, cells, -, rfl⟩ := (@Table.get?_eq_some_iff .field m.fields i row).mp hrow
  rfl

namespace MovesMembers

variable {m m' : MetadataModule} {p q : Equiv.Perm ℕ} (h : m.MovesMembers m' p q)
include h

/-- The places of fields lead to where these were moved. -/
lemma movesFields (hdirect : m.fieldPtrs.rowCount = 0) :
    m.MovesList m'.toModuleTables .field p :=
  .of_pointers (if_pos hdirect) (fun _ => if_pos hdirect) rfl (fun _ => rfl) h.fieldCount
    h.fieldPtrCount fun i hone hle => by rw [h.fieldPtrs i hone hle, Option.map_some]

/-- The places of parameters lead to where these were moved. -/
lemma movesParams (hdirect : m.paramPtrs.rowCount = 0) :
    m.MovesList m'.toModuleTables .param q :=
  .of_pointers (if_pos hdirect) (fun _ => if_pos hdirect) rfl (fun _ => rfl) h.paramCount
    h.paramPtrCount fun j hone hle => by rw [h.paramPtrs j hone hle, Option.map_some]

/-! ## Fields -/

/-- A field is resolved to the same in the row to which it was moved, but for its token. -/
lemma resolveField_eq {typeParameters : List String} {i : ℕ} {row : FieldRow}
    (hrow : m.fields.get? i = some row) :
    m'.resolveField typeParameters (p i) =
      (fun f : FieldInfo => { f with token := TableId.field.token (p i) }) <$>
        m.resolveField typeParameters i := by
  have hmark : m'.isGenerated (TableId.field.token (p i)) = m.isGenerated row.token := by
    rw [token_of_get?_fields hrow]
    exact h.fieldMarks i row hrow
  unfold resolveField
  rw [hrow, h.fields i row hrow]
  simp only [h.strings, h.blobs, h.namesAlike.signatureName_eq, map_bind, map_pure]
  refine bind_congr fun name => bind_congr fun blob => bind_congr fun sig =>
    bind_congr fun type => ?_
  rw [FieldRow.token, hmark]

/-- The fields of a type are resolved to the same in the rows to which they were moved, but for
their tokens. -/
lemma related_fields {owner : ℕ} {rows : List ℕ}
    (hreadable : ∀ i ∈ rows, (m.fields.get? i).isSome) :
    Resolution.Related (List.Forall₂ (FieldInfo.MovedBy p rows))
      (Resolution.forEach
        (fun rid => Resolution.ofExcept (m.resolveField ((m.typeGenerics[owner]?).getD []) rid))
        rows)
      (Resolution.forEach
        (fun rid => Resolution.ofExcept (m'.resolveField ((m.typeGenerics[owner]?).getD []) rid))
        (rows.map p)) := by
  refine Resolution.Related.forEach (List.forall₂_map_right_iff.mpr (List.forall₂_same.mpr ?_))
  intro i hi
  obtain ⟨row, hrow⟩ := Option.isSome_iff_exists.mp (hreadable i hi)
  refine ⟨rfl, ?_⟩
  rw [h.resolveField_eq hrow]
  cases hfield : m.resolveField ((m.typeGenerics[owner]?).getD []) i with
  | error e => exact .inl ⟨e, rfl, rfl⟩
  | ok f =>
    refine .inr ⟨f, _, rfl, rfl, i, hi, ?_, rfl⟩
    obtain ⟨row', -, -, hrow', -, -, -, htoken, -⟩ := resolveField_eq_ok hfield
    exact htoken.trans (token_of_get?_fields hrow')

/-! ## Methods -/

/-- **Methods are resolved to the same**, with the same warnings.

**Proof sketch.** Where parameters were moved, the pointers lead from the same places. So the rows
in the run of a method hold the same, one by one, and so do the last ones about each position. -/
lemma resolveMethod_eq (hdirect : m.paramPtrs.rowCount = 0)
    (hreadable : ∀ j, 1 ≤ j → j ≤ m.params.rowCount → (m.params.get? j).isSome)
    (typeParameters : List String) (rid : ℕ) :
    m'.resolveMethod typeParameters rid = m.resolveMethod typeParameters rid := by
  have hmoves := h.movesParams hdirect
  refine h.toSameTypesAndMethods.resolveMethod_eq hmoves.count fun count _ position _ _ => ?_
  rw [ModuleTables.paramRowsOf, ModuleTables.paramRowsOf, hmoves.membersOf_eq h.methods.get?,
    List.filterMap_map]
  refine contents_lastAbout?_filterMap fun j hj => ?_
  obtain ⟨hone, hle⟩ := hmoves.mem_range_of_mem hj
  simp only [ModuleTables.memberCount, hdirect, if_true] at hle
  obtain ⟨row, hrow⟩ := Option.isSome_iff_exists.mp (hreadable j hone hle)
  rw [contents_filter, contents_filter, Function.comp_apply, h.params j row hrow, hrow]
  rfl

/-! ## Types -/

/-- **Types are resolved to the same**, with the same warnings and the same failures, but that their
fields lie in other rows.

**Proof sketch.** Step by step: names read no members, the run of fields is moved
(`ModuleTables.MovesList.related_runOf`) and each field in it is resolved to the same
(`related_fields`), and the methods are the same in both modules (`resolveMethod_eq`). -/
lemma related_resolveType (hfieldPtrs : m.fieldPtrs.rowCount = 0)
    (hparamPtrs : m.paramPtrs.rowCount = 0)
    (hfields : ∀ i, 1 ≤ i → i ≤ m.fields.rowCount → (m.fields.get? i).isSome)
    (hparams : ∀ j, 1 ≤ j → j ≤ m.params.rowCount → (m.params.get? j).isSome) {rid : ℕ}
    {row : TypeDefRow} (hrow : m.typeDefs.get? rid = some row) :
    Resolution.Related (Option.Rel (TypeInfo.MovedBy p (m.membersOf .field rid)))
      (m.resolveType row) (m'.resolveType row) := by
  have hnames := h.namesAlike
  have hnumber : row.rid = rid := @ModuleTables.ownerNumber_of_get? m.toModuleTables .field _ _ hrow
  have hmoves := h.movesFields hfieldPtrs
  have hfieldRows := hmoves.related_runOf h.typeDefs.get? hrow
  have hreadable : ∀ i ∈ m.membersOf .field rid, (m.fields.get? i).isSome := by
    intro i hi
    obtain ⟨hone, hle⟩ := hmoves.mem_range_of_mem hi
    simp only [ModuleTables.memberCount, hfieldPtrs, if_true] at hle
    exact hfields i hone hle
  unfold resolveType
  rw [h.strings, hnames.fullName_eq, hnames.typeKind_eq, hnames.typeGenerics,
    h.typeMarks rid row hrow]
  refine .bind_same _ fun name => ?_
  by_cases hmodule : name = moduleTypeName
  · rw [if_pos hmodule, if_pos hmodule]
    exact .pure .none
  · rw [if_neg hmodule, if_neg hmodule]
    refine .bind_same _ fun fullName => .bind_same _ fun kind => ?_
    refine hfieldRows.bind fun rows rows' hrows => ?_
    obtain ⟨rfl, rfl⟩ := hrows
    refine (h.related_fields hreadable).bind fun fields fields' hmoved => ?_
    change Resolution.Related _ (m.runOf .method row >>= _) (m'.runOf .method row >>= _)
    rw [h.toSameTypesAndMethods.runOf_method_eq]
    refine .bind_same _ fun methodRows => ?_
    rw [Resolution.forEach_congr fun rid _ => h.resolveMethod_eq hparamPtrs hparams _ rid]
    refine .bind_same _ fun methods => ?_
    exact .pure (.some ⟨hmoved, rfl⟩)

end MovesMembers

end MetadataModule

/-! ## Opened modules -/

/-- Fields and parameters have no coded index. -/
lemma RowKind.isPlain_members : field.IsPlain ∧ param.IsPlain :=
  ⟨isPlain_of_notMem (by decide), isPlain_of_notMem (by decide)⟩

namespace OpenModule

/-- **The order of rows makes no difference to types.** Let a module without pointers to fields or
parameters be opened from any metadata, and let another module hold the same, but that field `i`
lies in row `p i` and parameter `j` in row `q j`, with pointers that lead there, and that marks of
fields have moved with them. Then every type is resolved to the same in both, with the same warnings
and the same failures, but that the fields in its run have the tokens of the rows to which they were
moved. So it is for any two permutations, and wherever the runs start and stop.

**Proof sketch.** Runs are cut alike, since both lists are of the same length, and the pointers lead
from each place to where the row with its number was moved. All fields and parameters can be read,
since they have no coded index, and they hold the same where they were moved. -/
theorem resolveType_movesMembers {metadata : ByteArray} {m : OpenModule}
    (hopen : ofMetadata metadata = .ok m) (hfieldPtrs : m.indexed.fieldPtrs.rowCount = 0)
    (hparamPtrs : m.indexed.paramPtrs.rowCount = 0) {m' : MetadataModule} {p q : Equiv.Perm ℕ}
    (h : m.indexed.MovesMembers m' p q) {rid : ℕ} {row : TypeDefRow}
    (hrow : m.indexed.typeDefs.get? rid = some row) :
    Resolution.Related (Option.Rel (TypeInfo.MovedBy p (m.indexed.membersOf .field rid)))
      (m.indexed.resolveType row) (m'.resolveType row) :=
  h.related_resolveType hfieldPtrs hparamPtrs
    (fun _ => isSome_get?_of_isPlain hopen RowKind.isPlain_members.1)
    (fun _ => isSome_get?_of_isPlain hopen RowKind.isPlain_members.2) hrow

/-- The strings of a module, and the signatures behind them. -/
def movedHeaps : List UInt8 × List UInt8 :=
  ([0x00, 0x54, 0x00, 0x4D, 0x00, 0x61, 0x00, 0x62, 0x00, 0x53, 0x79, 0x73, 0x74, 0x65, 0x6D, 0x2E,
    0x52, 0x75, 0x6E, 0x74, 0x69, 0x6D, 0x65, 0x2E, 0x43, 0x6F, 0x6D, 0x70, 0x69, 0x6C, 0x65, 0x72,
    0x53, 0x65, 0x72, 0x76, 0x69, 0x63, 0x65, 0x73, 0x00, 0x43, 0x6F, 0x6D, 0x70, 0x69, 0x6C, 0x65,
    0x72, 0x47, 0x65, 0x6E, 0x65, 0x72, 0x61, 0x74, 0x65, 0x64, 0x41, 0x74, 0x74, 0x72, 0x69, 0x62,
    0x75, 0x74, 0x65, 0x00],
   [0x00, 0x02, 0x06, 0x08, 0x02, 0x06, 0x0E, 0x05, 0x00, 0x02, 0x01, 0x08, 0x0E])

/-- Metadata with a type of two fields, the second of which is made by a compiler, and of a method
with two parameters. The run of its fields leaves the table. -/
def directMetadata : ByteArray :=
  let front : List UInt8 :=
    [0x42, 0x53, 0x4A, 0x42, 0x01, 0x00, 0x01, 0x00, 0x00, 0x00, 0x00, 0x00, 0x04, 0x00, 0x00, 0x00,
     0x76, 0x34, 0x00, 0x00, 0x00, 0x00, 0x03, 0x00, 0x48, 0x00, 0x00, 0x00, 0x88, 0x00, 0x00, 0x00,
     0x23, 0x7E, 0x00, 0x00, 0xD0, 0x00, 0x00, 0x00, 0x44, 0x00, 0x00, 0x00, 0x23, 0x53, 0x74, 0x72,
     0x69, 0x6E, 0x67, 0x73, 0x00, 0x00, 0x00, 0x00, 0x14, 0x01, 0x00, 0x00, 0x0D, 0x00, 0x00, 0x00,
     0x23, 0x42, 0x6C, 0x6F, 0x62, 0x00, 0x00, 0x00, 0x00, 0x00, 0x00, 0x00, 0x02, 0x00, 0x00, 0x01,
     0x56, 0x15, 0x00, 0x00, 0x00, 0x00, 0x00, 0x00, 0x00, 0x00, 0x00, 0x00, 0x00, 0x00, 0x00, 0x00,
     0x01, 0x00, 0x00, 0x00, 0x02, 0x00, 0x00, 0x00, 0x02, 0x00, 0x00, 0x00, 0x01, 0x00, 0x00, 0x00,
     0x02, 0x00, 0x00, 0x00, 0x01, 0x00, 0x00, 0x00, 0x01, 0x00, 0x00, 0x00, 0x00, 0x00, 0x29, 0x00,
     0x09, 0x00, 0x00, 0x00, 0x00, 0x00, 0x01, 0x00, 0x00, 0x00, 0x00, 0x00, 0x01, 0x00, 0x01, 0x00,
     0x00, 0x00, 0x00, 0x00, 0x05, 0x00, 0x00, 0x00, 0x00, 0x00, 0x09, 0x00, 0x02, 0x00, 0x06, 0x00,
     0x05, 0x00, 0x01, 0x00, 0x16, 0x00, 0x07, 0x00, 0x04, 0x00, 0x00, 0x00, 0x00, 0x00, 0x00, 0x00,
     0x00, 0x00, 0x03, 0x00, 0x07, 0x00, 0x01, 0x00, 0x00, 0x00, 0x01, 0x00, 0x05, 0x00, 0x02, 0x00,
     0x02, 0x00, 0x07, 0x00, 0x09, 0x00, 0x00, 0x00, 0x00, 0x00, 0x41, 0x00, 0x0B, 0x00, 0x00, 0x00]
  ⟨(front ++ movedHeaps.1 ++ movedHeaps.2).toArray⟩

/-- The same members in other rows, with pointers to them. -/
def movedMetadata : ByteArray :=
  let front : List UInt8 :=
    [0x42, 0x53, 0x4A, 0x42, 0x01, 0x00, 0x01, 0x00, 0x00, 0x00, 0x00, 0x00, 0x04, 0x00, 0x00, 0x00,
     0x76, 0x34, 0x00, 0x00, 0x00, 0x00, 0x03, 0x00, 0x48, 0x00, 0x00, 0x00, 0x98, 0x00, 0x00, 0x00,
     0x23, 0x7E, 0x00, 0x00, 0xE0, 0x00, 0x00, 0x00, 0x44, 0x00, 0x00, 0x00, 0x23, 0x53, 0x74, 0x72,
     0x69, 0x6E, 0x67, 0x73, 0x00, 0x00, 0x00, 0x00, 0x24, 0x01, 0x00, 0x00, 0x0D, 0x00, 0x00, 0x00,
     0x23, 0x42, 0x6C, 0x6F, 0x62, 0x00, 0x00, 0x00, 0x00, 0x00, 0x00, 0x00, 0x02, 0x00, 0x00, 0x01,
     0xDE, 0x15, 0x00, 0x00, 0x00, 0x00, 0x00, 0x00, 0x00, 0x00, 0x00, 0x00, 0x00, 0x00, 0x00, 0x00,
     0x01, 0x00, 0x00, 0x00, 0x02, 0x00, 0x00, 0x00, 0x02, 0x00, 0x00, 0x00, 0x02, 0x00, 0x00, 0x00,
     0x01, 0x00, 0x00, 0x00, 0x02, 0x00, 0x00, 0x00, 0x02, 0x00, 0x00, 0x00, 0x01, 0x00, 0x00, 0x00,
     0x01, 0x00, 0x00, 0x00, 0x00, 0x00, 0x29, 0x00, 0x09, 0x00, 0x00, 0x00, 0x00, 0x00, 0x01, 0x00,
     0x00, 0x00, 0x00, 0x00, 0x01, 0x00, 0x01, 0x00, 0x00, 0x00, 0x00, 0x00, 0x05, 0x00, 0x00, 0x00,
     0x00, 0x00, 0x09, 0x00, 0x02, 0x00, 0x02, 0x00, 0x01, 0x00, 0x16, 0x00, 0x07, 0x00, 0x04, 0x00,
     0x06, 0x00, 0x05, 0x00, 0x01, 0x00, 0x00, 0x00, 0x00, 0x00, 0x00, 0x00, 0x00, 0x00, 0x03, 0x00,
     0x07, 0x00, 0x01, 0x00, 0x02, 0x00, 0x01, 0x00, 0x02, 0x00, 0x02, 0x00, 0x07, 0x00, 0x00, 0x00,
     0x01, 0x00, 0x05, 0x00, 0x09, 0x00, 0x00, 0x00, 0x00, 0x00, 0x21, 0x00, 0x0B, 0x00, 0x00, 0x00]
  ⟨(front ++ movedHeaps.1 ++ movedHeaps.2).toArray⟩

/-- What both of them hold besides. -/
def movedSources : Sources where
  strings := movedHeaps.1
  blobs := movedHeaps.2
  typeRefs := [⟨1, ⟨.module, 0⟩, 41, 9⟩]
  typeDefs := [⟨1, 0, 1, 0, ⟨.typeDef, 0⟩, 1, 1⟩, ⟨2, 0, 5, 0, ⟨.typeDef, 0⟩, 9, 2⟩]
  typeSpecs := []
  methods := [⟨1, 0, 0, 0, 3, 7, 1⟩]
  methodPtrs := []
  nestedClasses := []
  genericParams := []

/-- The fields and the parameters of a module with these sources, the pointers to them, and what is
marked as made by a compiler. -/
@[mk_iff]
structure HasMembers (m : OpenModule) (marks : List ℕ) (fields : List FieldRow)
    (fieldPtrs : List FieldPtrRow) (params : List ParamRow) (paramPtrs : List ParamPtrRow) :
    Prop where
  sources : m.HasSources movedSources
  marks : m.indexed.generated.toList = marks
  fields : m.indexed.fields.Holds fields
  fieldPtrs : m.indexed.fieldPtrs.Holds fieldPtrs
  params : m.indexed.params.Holds params
  paramPtrs : m.indexed.paramPtrs.Holds paramPtrs

instance (m : OpenModule) (marks : List ℕ) (fields : List FieldRow) (fieldPtrs : List FieldPtrRow)
    (params : List ParamRow) (paramPtrs : List ParamPtrRow) :
    Decidable (m.HasMembers marks fields fieldPtrs params paramPtrs) :=
  decidable_of_iff' _ (m.hasMembers_iff marks fields fieldPtrs params paramPtrs)

/-- A module holds the members of `directMetadata`. -/
def HasDirectMembers (m : OpenModule) : Prop :=
  m.HasMembers [0x04000002] [⟨1, 6, 5, 1⟩, ⟨2, 0x16, 7, 4⟩] [] [⟨1, 0, 1, 5⟩, ⟨2, 2, 2, 7⟩] []

/-- A module holds the members of `movedMetadata`. -/
def HasMovedMembers (m : OpenModule) : Prop :=
  m.HasMembers [0x04000001] [⟨1, 0x16, 7, 4⟩, ⟨2, 6, 5, 1⟩] [⟨1, 2⟩, ⟨2, 1⟩]
    [⟨1, 2, 2, 7⟩, ⟨2, 0, 1, 5⟩] [⟨1, 2⟩, ⟨2, 1⟩]

instance (m : OpenModule) : Decidable m.HasDirectMembers :=
  inferInstanceAs (Decidable (m.HasMembers ..))

instance (m : OpenModule) : Decidable m.HasMovedMembers :=
  inferInstanceAs (Decidable (m.HasMembers ..))

/-- Two rows of a table have changed places. -/
lemma get?_swap_of_holds {α : Type} [MetadataRow α] {t t' : Table α} {a b row : α} {i : ℕ}
    (move : α → ℕ → α) (h : t.Holds [a, b]) (h' : t'.Holds [move b 1, move a 2])
    (hrow : t.get? i = some row) :
    t'.get? (Equiv.swap 1 2 i) = some (move row (Equiv.swap 1 2 i)) := by
  obtain ⟨hone, hle⟩ := h.range_of_get? hrow
  obtain rfl | rfl : i = 1 ∨ i = 2 := by
    rw [List.length_cons, List.length_singleton] at hle
    omega
  · rw [h.get?_succ 0] at hrow
    cases hrow
    exact h'.get?_succ 1
  · rw [h.get?_succ 1] at hrow
    cases hrow
    exact h'.get?_succ 0

section DirectMembers

variable {m m' : OpenModule}

/-- Besides, modules with these members hold the same. -/
lemma HasDirectMembers.sameTypesAndMethods (h : m.HasDirectMembers) (h' : m'.HasMovedMembers) :
    m.indexed.SameTypesAndMethods m'.indexed := by
  refine h.sources.sameTypesAndMethods h'.sources fun token htoken => ?_
  have hvalue : token.value.toNat / 0x1000000 ≠ 4 := htoken
  rw [isGenerated_eq_contains, isGenerated_eq_contains, h.marks, h'.marks]
  simp only [List.contains_cons, List.contains_nil, Bool.or_false, beq_eq_beq]
  omega

/-- The members have changed places. -/
lemma HasDirectMembers.movesMembers (h : m.HasDirectMembers) (h' : m'.HasMovedMembers) :
    m.indexed.MovesMembers m'.indexed (Equiv.swap 1 2) (Equiv.swap 1 2) := by
  have htwo : ∀ {i}, 1 ≤ i ∧ i ≤ 2 → i = 1 ∨ i = 2 := by omega
  refine ⟨h.sameTypesAndMethods h', h'.fields.1.trans h.fields.1.symm, fun i field hfield => ?_,
    h'.fieldPtrs.1.trans h.fields.1.symm, fun i hone hle => ?_, fun i field hfield => ?_,
    h'.params.1.trans h.params.1.symm, fun j param hparam => ?_,
    h'.paramPtrs.1.trans h.params.1.symm, fun j hone hle => ?_⟩
  · exact get?_swap_of_holds (fun row rid => { row with rid := rid }) h.fields h'.fields hfield
  · obtain rfl | rfl := htwo ⟨hone, hle.trans h.fields.1.le⟩
    · exact h'.fieldPtrs.get?_succ 0
    · exact h'.fieldPtrs.get?_succ 1
  · rw [isGenerated_eq_contains, isGenerated_eq_contains, h.marks, h'.marks]
    obtain rfl | rfl := htwo (h.fields.range_of_get? hfield) <;> decide
  · exact get?_swap_of_holds (fun row rid => { row with rid := rid }) h.params h'.params hparam
  · obtain rfl | rfl := htwo ⟨hone, hle.trans h.params.1.le⟩
    · exact h'.paramPtrs.get?_succ 0
    · exact h'.paramPtrs.get?_succ 1

end DirectMembers

/-- Moved members by the general law: the fields of a type have the same names in the same order,
and each of them has the token of the row of the other. The warning about their run is the same. -/
theorem resolveType_movesMembers_directMetadata :
    ∃ m m' row type type', ofMetadata directMetadata = .ok m ∧ ofMetadata movedMetadata = .ok m' ∧
      m.indexed.typeDefs.get? 1 = some row ∧
      (m.indexed.resolveType row).result = .ok (some type) ∧
      (m'.indexed.resolveType row).result = .ok (some type') ∧
      (m.indexed.resolveType row).warnings.length = 1 ∧
      (m'.indexed.resolveType row).warnings = (m.indexed.resolveType row).warnings ∧
      type'.fields.map FieldInfo.name = type.fields.map FieldInfo.name ∧
      type'.fields.map (fun f => f.token.row) =
        type.fields.map (fun f => Equiv.swap 1 2 f.token.row) ∧
      type'.methods = type.methods := by
  obtain ⟨m, hopen, htest⟩ : ∃ m, ofMetadata directMetadata = .ok m ∧
      decide (m.HasDirectMembers ∧ m.indexed.membersOf .field 1 = [1, 2] ∧
        (m.indexed.resolveType ⟨1, 0, 1, 0, ⟨.typeDef, 0⟩, 1, 1⟩).warnings.length = 1 ∧
        (m.indexed.resolveType ⟨1, 0, 1, 0, ⟨.typeDef, 0⟩, 1, 1⟩).result.toOption.any
          Option.isSome) = true := exists_ok_of_any (by decide +kernel)
  obtain ⟨m', hopen', htest'⟩ : ∃ m', ofMetadata movedMetadata = .ok m' ∧
      decide m'.HasMovedMembers = true := exists_ok_of_any (by decide +kernel)
  obtain ⟨hm, hmembers, hwarnings, hlisted⟩ := of_decide_eq_true htest
  have hm' := of_decide_eq_true htest'
  have hrow : m.indexed.typeDefs.get? 1 = some ⟨1, 0, 1, 0, ⟨.typeDef, 0⟩, 1, 1⟩ :=
    hm.sources.types.2.1.get?_succ 0
  obtain ⟨type?, hresult, htype⟩ := exists_ok_of_any hlisted
  obtain ⟨type, rfl⟩ := Option.isSome_iff_exists.mp htype
  obtain ⟨hsameWarnings, ⟨e, herror, -⟩ | ⟨type?, type?', htype, htype', hrelated⟩⟩ :=
    resolveType_movesMembers hopen hm.fieldPtrs.1 hm.paramPtrs.1 (hm.movesMembers hm') hrow
  · rw [hresult] at herror
    cases herror
  · obtain rfl : some type = type? := Except.ok.inj (hresult.symm.trans htype)
    cases hrelated with
    | some hmoved =>
      rw [hmembers] at hmoved
      refine ⟨m, m', _, type, _, hopen, hopen', hrow, hresult, htype', hwarnings, hsameWarnings,
        hmoved.map_fields_eq ?_, hmoved.map_fields_eq ?_, by rw [hmoved.rest]⟩
      · rintro f f' ⟨i, -, -, rfl⟩
        rfl
      · rintro f f' ⟨i, hi, htoken, rfl⟩
        simp only [List.mem_cons, List.not_mem_nil, or_false] at hi
        rw [htoken]
        change (TableId.field.token (Equiv.swap 1 2 i)).row =
          Equiv.swap 1 2 (TableId.field.token i).row
        rcases hi with rfl | rfl <;> decide

end OpenModule

end TypeInventory
