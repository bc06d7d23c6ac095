import TypeInventory.Proofs.Metadata.Access
import TypeInventory.Proofs.Module.Warnings

set_option relaxedAutoImplicit false
set_option autoImplicit false

/-!
# What becomes of the types of a module

Loading a module goes through its type definitions in order and resolves them one by one. A type
that is resolved is listed; one that cannot be resolved leaves an error with its token. The type
that holds what belongs to no type is neither. So each row that the loader comes to is accounted
for. The loader does not come to all of them, though: it ends at the first row that cannot be read,
and this row and all behind it are neither listed nor reported.

## Main definitions

* `OpenModule.IsModuleType` — the rows that hold what belongs to no type.
* `LoadedModule.typesWith`, `LoadedModule.errorsWith` — what a loaded module says under a token.
* `OpenModule.Accounts` — exactly one thing became of a row.
* `OpenModule.missing` — how many types are not listed.

## Main results

* `OpenModule.types_accounted_for` — which rows are accounted for, and when the errors are as many
  as the types that are missing.
* `OpenModule.unreadable_row_hides_types` — a module that loses two types without an error.
-/

namespace TypeInventory

/-! ## What is said under a token -/

/-- Exactly one of three. -/
def ExactlyOne (p q r : Prop) : Prop :=
  (p ∧ ¬q ∧ ¬r) ∨ (¬p ∧ q ∧ ¬r) ∨ (¬p ∧ ¬q ∧ r)

instance {p q r : Prop} [Decidable p] [Decidable q] [Decidable r] :
    Decidable (ExactlyOne p q r) :=
  inferInstanceAs (Decidable (_ ∨ _ ∨ _))

namespace LoadedModule

/-- The types that are listed under a token. -/
def typesWith (l : LoadedModule) (token : Token) : List TypeInfo :=
  l.types.filter fun type => type.token = token

/-- The errors about a token. -/
def errorsWith (l : LoadedModule) (token : Token) : List Diagnostic :=
  l.diagnostics.filter fun d => d.severity = .error ∧ d.token? = some token

end LoadedModule

namespace OpenModule

/-- The type definitions. -/
def typeDefs (m : OpenModule) : Table TypeDefRow :=
  m.tables.table TypeDefRow

/-- The name of the type in row `rid`, if it can be read. -/
def typeName? (m : OpenModule) (rid : ℕ) : Option String := do
  let row ← m.typeDefs.get? rid
  (m.strings.get row.typeName).toOption

/-- Row `rid` is the type that holds what belongs to no type. -/
def IsModuleType (m : OpenModule) (rid : ℕ) : Prop :=
  m.typeName? rid = some moduleTypeName

instance (m : OpenModule) (rid : ℕ) : Decidable (m.IsModuleType rid) :=
  inferInstanceAs (Decidable (_ = _))

/-- Exactly one thing became of row `rid`: it is the type that holds what belongs to no type, or it
is listed once, or there is one error about it. -/
def Accounts (m : OpenModule) (l : LoadedModule) (rid : ℕ) : Prop :=
  ExactlyOne (m.IsModuleType rid) ((l.typesWith (TableId.typeDef.token rid)).length = 1)
    ((l.errorsWith (TableId.typeDef.token rid)).length = 1)

instance (m : OpenModule) (l : LoadedModule) (rid : ℕ) : Decidable (m.Accounts l rid) :=
  inferInstanceAs (Decidable (ExactlyOne _ _ _))

/-- How many rows, other than the type that holds what belongs to no type, are not listed. -/
def missing (m : OpenModule) (l : LoadedModule) : ℕ :=
  (List.range' 1 m.typeDefs.rowCount).countP fun rid =>
    ¬m.IsModuleType rid ∧ l.typesWith (TableId.typeDef.token rid) = []

/-! ## Rows -/

section Rows

variable {m : OpenModule} {row : TypeDefRow} {rid : ℕ}

/-- A row that is given has the number that it is given for. -/
lemma rid_of_get? (h : m.typeDefs.get? rid = some row) : row.rid = rid := by
  obtain ⟨-, -, cells, -, rfl⟩ := (@Table.get?_eq_some_iff .typeDef m.typeDefs rid row).mp h
  rfl

/-- The rows in order are rows of the table. -/
lemma length_rows_le (m : OpenModule) : m.typeDefs.rows.length ≤ m.typeDefs.rowCount :=
  (@Table.rows_eq_first .typeDef m.typeDefs).1

/-- The row behind those in order, if there is one, cannot be read. -/
lemma get?_behind_rows (h : m.typeDefs.rows.length < m.typeDefs.rowCount) :
    m.typeDefs.get? (m.typeDefs.rows.length + 1) = none :=
  (@Table.rows_eq_first .typeDef m.typeDefs).2.2 h

/-- The row at a place in their order is that with the next number. -/
lemma get?_succ_of_lt {i : ℕ} (h : i < m.typeDefs.rows.length) :
    m.typeDefs.get? (i + 1) = some m.typeDefs.rows[i] :=
  @Table.get?_succ_of_lt_length .typeDef m.typeDefs i h

/-- The rows in order reach up to a row exactly when all rows up to it can be read. -/
lemma le_length_rows_iff (h : rid ≤ m.typeDefs.rowCount) :
    rid ≤ m.typeDefs.rows.length ↔ ∀ j, 1 ≤ j → j ≤ rid → (m.typeDefs.get? j).isSome :=
  @Table.le_length_rows_iff .typeDef m.typeDefs rid h

/-- The rows in order have the numbers 1, 2, … -/
lemma map_rid_rows (m : OpenModule) :
    m.typeDefs.rows.map TypeDefRow.rid = List.range' 1 m.typeDefs.rows.length := by
  refine List.ext_getElem (by simp) fun i hi _ => ?_
  rw [List.length_map] at hi
  rw [List.getElem_map, List.getElem_range', Nat.one_mul, Nat.add_comm]
  exact rid_of_get? (get?_succ_of_lt hi)

/-- The numbers of the rows in order are those of rows that are there. -/
lemma rid_of_mem_rows (h : row ∈ m.typeDefs.rows) :
    1 ≤ row.rid ∧ row.rid ≤ m.typeDefs.rows.length := by
  have hmem : row.rid ∈ m.typeDefs.rows.map TypeDefRow.rid := List.mem_map_of_mem h
  rw [map_rid_rows, List.mem_range'_1] at hmem
  omega

/-- The rows in order are those that are given for their numbers. -/
lemma get?_rid_of_mem_rows (h : row ∈ m.typeDefs.rows) : m.typeDefs.get? row.rid = some row := by
  obtain ⟨i, hi, rfl⟩ := List.getElem_of_mem h
  have hget := get?_succ_of_lt hi
  rw [rid_of_get? hget]
  exact hget

/-- Different rows have different tokens, as long as rows are numbered with 24 bits. -/
lemma token_eq_iff {i j : ℕ} (hi : i < 2 ^ 24) (hj : j < 2 ^ 24) :
    TableId.typeDef.token i = TableId.typeDef.token j ↔ i = j := by
  constructor
  · intro h
    have hrow := congrArg Token.row h
    simp only [TableId.token, Token.row_ofParts] at hrow
    omega
  · rintro rfl
    rfl

/-- A row that the rows in order reach is the only one with its token. -/
lemma filter_token_of_le (hcount : m.typeDefs.rowCount < 2 ^ 24) (hone : 1 ≤ rid)
    (hle : rid ≤ m.typeDefs.rows.length) :
    ∃ row, m.typeDefs.get? rid = some row ∧
      m.typeDefs.rows.filter (fun row => row.token = TableId.typeDef.token rid) = [row] := by
  have hlength := length_rows_le m
  have hfilter : m.typeDefs.rows.filter (fun row => row.token = TableId.typeDef.token rid) =
      m.typeDefs.rows.filter (fun row => row.rid = rid) := by
    refine List.filter_congr fun row hrow => ?_
    obtain ⟨-, hrid⟩ := rid_of_mem_rows hrow
    rw [TypeDefRow.token, decide_eq_decide]
    exact token_eq_iff (by omega) (by omega)
  have hcountOne : (m.typeDefs.rows.filter fun row => row.rid = rid).length = 1 := by
    have hmem : rid ∈ List.range' 1 m.typeDefs.rows.length := by
      rw [List.mem_range'_1]
      omega
    have hcountRid : (m.typeDefs.rows.map TypeDefRow.rid).count rid = 1 := by
      rw [map_rid_rows, (List.nodup_range' 1).count, if_pos hmem]
    rw [← List.countP_eq_length_filter, ← hcountRid, List.count, List.countP_map]
    rfl
  obtain ⟨row, hrow⟩ := List.length_eq_one_iff.mp hcountOne
  have hrowMem : row ∈ m.typeDefs.rows.filter fun row => row.rid = rid := by
    rw [hrow]
    exact List.mem_singleton_self row
  rw [List.mem_filter, decide_eq_true_eq] at hrowMem
  obtain ⟨hrows, rfl⟩ := hrowMem
  exact ⟨row, get?_rid_of_mem_rows hrows, hfilter.trans hrow⟩

/-- A row behind those that the rows in order reach has no row with its token. -/
lemma filter_token_of_lt (hcount : m.typeDefs.rowCount < 2 ^ 24) (hrid : rid ≤ m.typeDefs.rowCount)
    (hlt : m.typeDefs.rows.length < rid) :
    m.typeDefs.rows.filter (fun row => row.token = TableId.typeDef.token rid) = [] := by
  rw [List.filter_eq_nil_iff]
  intro row hrow
  obtain ⟨-, hle⟩ := rid_of_mem_rows hrow
  rw [TypeDefRow.token, decide_eq_true_eq, token_eq_iff (by omega) (by omega)]
  omega

end Rows

/-! ## What becomes of a row -/

/-- The module with its relations, in which types are resolved. -/
def indexed (m : OpenModule) : MetadataModule :=
  (MetadataModule.ofTables (ModuleTables.ofStreams m.strings m.blobs m.tables) m.tables).2

/-- A row with what becomes of it. -/
def outcome (m : OpenModule) (row : TypeDefRow) : TypeOutcome :=
  ⟨row, m.indexed.resolveType row⟩

section Outcomes

variable {m : OpenModule} {find? : Option (String → Option String)} {row : TypeDefRow} {rid : ℕ}

/-- One of three things becomes of a row: it has the name for what belongs to no type, or it is
listed with its token, or it leaves an error with its token. -/
lemma outcome_cases (m : OpenModule) (row : TypeDefRow) :
    (m.strings.get row.typeName = .ok moduleTypeName ∧
        (m.outcome row).type? = none ∧ (m.outcome row).failure? = none) ∨
      (m.strings.get row.typeName ≠ .ok moduleTypeName ∧
        (∃ type, (m.outcome row).type? = some type ∧ type.token = row.token) ∧
        (m.outcome row).failure? = none) ∨
      (m.strings.get row.typeName ≠ .ok moduleTypeName ∧
        (m.outcome row).type? = none ∧
        ∃ d, (m.outcome row).failure? = some d ∧ d.severity = .error ∧
          d.token? = some row.token) := by
  unfold TypeOutcome.type? TypeOutcome.failure? outcome
  cases hresult : (m.indexed.resolveType row).result with
  | ok type? =>
    obtain ⟨name, hname, ⟨rfl, rfl⟩ | ⟨hmodule, type, rfl, htoken⟩⟩ :=
      m.indexed.resolveType_eq_ok hresult
    · exact .inl ⟨hname, rfl, rfl⟩
    · refine .inr (.inl ⟨?_, ⟨type, rfl, htoken⟩, rfl⟩)
      intro h
      have heq : (Except.ok name : Except Fault String) = .ok moduleTypeName := hname.symm.trans h
      cases heq
      exact hmodule rfl
  | error e =>
    refine .inr (.inr ⟨?_, rfl, typeFailure row e, rfl, rfl, rfl⟩)
    intro h
    rw [m.indexed.resolveType_of_moduleTypeName h] at hresult
    cases hresult

/-- The types that are listed come from the rows in order. -/
lemma types_load :
    (m.load find?).1.types = (m.typeDefs.rows.map m.outcome).filterMap TypeOutcome.type? :=
  rfl

/-- A type that is listed comes from a row in order that could be resolved. -/
lemma exists_row_of_mem_types {type : TypeInfo} (h : type ∈ (m.load find?).1.types) :
    ∃ row ∈ m.typeDefs.rows, (m.indexed.resolveType row).result = .ok (some type) := by
  rw [types_load, List.mem_filterMap] at h
  obtain ⟨outcome, houtcome, htype⟩ := h
  obtain ⟨row, hrow, rfl⟩ := List.mem_map.mp houtcome
  unfold OpenModule.outcome TypeOutcome.type? at htype
  simp only at htype
  cases hresult : (m.indexed.resolveType row).result with
  | error e =>
    rw [hresult] at htype
    cases htype
  | ok type? =>
    rw [hresult] at htype
    exact ⟨row, hrow, hresult.trans (congrArg Except.ok htype)⟩

/-- A generic parameter whose name can be read comes with it. -/
lemma namedGenerics_cons_of_ok {strings : StringHeap} {row : GenericParamRow}
    {rows : List GenericParamRow} {name : String} (h : strings.get row.name = .ok name) :
    namedGenerics strings (row :: rows) =
      ((namedGenerics strings rows).1, (row, name) :: (namedGenerics strings rows).2) := by
  simp only [namedGenerics, List.foldr_cons, h]

/-- A generic parameter whose name cannot be read leaves a warning. -/
lemma namedGenerics_cons_of_error {strings : StringHeap} {row : GenericParamRow}
    {rows : List GenericParamRow} {e : Fault} (h : strings.get row.name = .error e) :
    namedGenerics strings (row :: rows) =
      (genericNameWarning row e :: (namedGenerics strings rows).1,
        (namedGenerics strings rows).2) := by
  simp only [namedGenerics, List.foldr_cons, h]

/-- The warnings about the names of generic parameters are no errors. -/
lemma severity_of_mem_namedGenerics {strings : StringHeap} {rows : List GenericParamRow}
    {d : Diagnostic} (h : d ∈ (namedGenerics strings rows).1) : d.severity ≠ .error := by
  induction rows with
  | nil => cases h
  | cons row rows ih =>
    cases hname : strings.get row.name with
    | ok name =>
      rw [namedGenerics_cons_of_ok hname] at h
      exact ih h
    | error e =>
      rw [namedGenerics_cons_of_error hname] at h
      rcases List.mem_cons.mp h with rfl | h
      · simp [genericNameWarning]
      · exact ih h

/-- A warning about a reference is no error. -/
lemma severity_of_diagnostic? {r : AssemblyReference} {d : Diagnostic}
    (h : r.diagnostic? = some d) : d.severity ≠ .error := by
  unfold AssemblyReference.diagnostic? at h
  split at h
  · cases h
  · cases h
    simp

/-- The diagnostics are harmless warnings, and then the errors about the rows in order. -/
lemma exists_diagnostics_load (m : OpenModule) (find? : Option (String → Option String)) :
    ∃ warnings, (∀ d ∈ warnings, d.severity ≠ .error) ∧
      (m.load find?).1.diagnostics =
        warnings ++ (m.typeDefs.rows.map m.outcome).filterMap TypeOutcome.failure? := by
  refine ⟨_, ?_, rfl⟩
  intro d hd
  rcases List.mem_append.mp hd with hd | hd
  · rcases List.mem_append.mp hd with hd | hd
    · obtain ⟨r, -, hr⟩ := List.mem_filterMap.mp hd
      exact severity_of_diagnostic? hr
    · exact severity_of_mem_namedGenerics hd
  · obtain ⟨o, ho, hd⟩ := List.mem_flatMap.mp hd
    obtain ⟨row, -, rfl⟩ := List.mem_map.mp ho
    exact m.indexed.resolveType_harmless row d hd

/-- What is listed under a token comes from the rows with this token. -/
lemma typesWith_load (m : OpenModule) (find? : Option (String → Option String)) (token : Token) :
    (m.load find?).1.typesWith token =
      (m.typeDefs.rows.filter fun row => row.token = token).filterMap
        fun row => (m.outcome row).type? := by
  rw [LoadedModule.typesWith, types_load, List.filterMap_map, List.filter_filterMap,
    List.filterMap_filter]
  refine List.filterMap_congr fun row _ => ?_
  rcases m.outcome_cases row with
    ⟨-, htype, -⟩ | ⟨-, ⟨type, htype, htoken⟩, -⟩ | ⟨-, htype, -⟩
  · simp [htype]
  · by_cases h : row.token = token <;> simp [htype, htoken, h]
  · simp [htype]

/-- The errors about a token come from the rows with this token. -/
lemma errorsWith_load (m : OpenModule) (find? : Option (String → Option String)) (token : Token) :
    (m.load find?).1.errorsWith token =
      (m.typeDefs.rows.filter fun row => row.token = token).filterMap
        fun row => (m.outcome row).failure? := by
  obtain ⟨warnings, hwarnings, hdiagnostics⟩ := m.exists_diagnostics_load find?
  have hnone : warnings.filter (fun d => d.severity = .error ∧ d.token? = some token) = [] := by
    rw [List.filter_eq_nil_iff]
    intro d hd
    simp [hwarnings d hd]
  rw [LoadedModule.errorsWith, hdiagnostics, List.filter_append, hnone, List.nil_append,
    List.filterMap_map, List.filter_filterMap, List.filterMap_filter]
  refine List.filterMap_congr fun row _ => ?_
  rcases m.outcome_cases row with
    ⟨-, -, hfailure⟩ | ⟨-, -, hfailure⟩ | ⟨-, -, d, hfailure, hseverity, htoken⟩
  · simp [hfailure]
  · simp [hfailure]
  · by_cases h : row.token = token <;> simp [hfailure, hseverity, htoken, h]

/-- The number of errors is that of the rows in order that leave one. -/
lemma errorCount_load :
    errorCount (m.load find?).1.diagnostics =
      m.typeDefs.rows.countP fun row => (m.outcome row).failure?.isSome := by
  obtain ⟨warnings, hwarnings, hdiagnostics⟩ := m.exists_diagnostics_load find?
  have hnone : warnings.countP (fun d => d.severity == .error) = 0 := by
    rw [List.countP_eq_zero]
    intro d hd
    simp [hwarnings d hd]
  have hall : ∀ d ∈ (m.typeDefs.rows.map m.outcome).filterMap TypeOutcome.failure?,
      (d.severity == .error) = true := by
    intro d hd
    obtain ⟨o, ho, hfailure⟩ := List.mem_filterMap.mp hd
    obtain ⟨row, -, rfl⟩ := List.mem_map.mp ho
    rcases m.outcome_cases row with ⟨-, -, h⟩ | ⟨-, -, h⟩ | ⟨-, -, d', h, hseverity, -⟩
    · rw [h] at hfailure
      cases hfailure
    · rw [h] at hfailure
      cases hfailure
    · rw [h] at hfailure
      cases hfailure
      simp [hseverity]
  rw [errorCount, hdiagnostics, List.countP_append, hnone, Nat.zero_add,
    List.countP_eq_length.mpr hall, List.filterMap_map, List.length_filterMap_eq_countP]
  rfl

/-! ## Accounting -/

/-- A row that is given has the name that its row tells. -/
lemma isModuleType_iff (h : m.typeDefs.get? rid = some row) :
    m.IsModuleType rid ↔ m.strings.get row.typeName = .ok moduleTypeName := by
  have hname : m.typeName? rid = (m.strings.get row.typeName).toOption := by
    rw [typeName?, h]
    rfl
  rw [IsModuleType, hname]
  cases m.strings.get row.typeName <;> simp [Except.toOption]

/-- A row that cannot be read is not the type that holds what belongs to no type. -/
lemma not_isModuleType_of_get?_eq_none (h : m.typeDefs.get? rid = none) : ¬m.IsModuleType rid := by
  have hname : m.typeName? rid = none := by
    rw [typeName?, h]
    rfl
  rw [IsModuleType, hname]
  simp

/-- Exactly one thing becomes of a row that the rows in order reach. It is missing when it leaves an
error. -/
lemma accounts_of_le (find? : Option (String → Option String))
    (hcount : m.typeDefs.rowCount < 2 ^ 24) (hone : 1 ≤ rid) (hle : rid ≤ m.typeDefs.rows.length) :
    m.Accounts (m.load find?).1 rid ∧
      ∃ row, m.typeDefs.get? rid = some row ∧
        ((¬m.IsModuleType rid ∧ (m.load find?).1.typesWith (TableId.typeDef.token rid) = []) ↔
          (m.outcome row).failure?.isSome) := by
  obtain ⟨row, hget, hrows⟩ := filter_token_of_le hcount hone hle
  have htypes := m.typesWith_load find? (TableId.typeDef.token rid)
  have herrors := m.errorsWith_load find? (TableId.typeDef.token rid)
  rw [hrows] at htypes herrors
  rw [Accounts, ExactlyOne, htypes, herrors, isModuleType_iff hget]
  rcases m.outcome_cases row with
    ⟨hname, htype, hfailure⟩ | ⟨hname, ⟨type, htype, -⟩, hfailure⟩ |
      ⟨hname, htype, d, hfailure, -, -⟩
  · exact ⟨by simp [hname, htype, hfailure], row, hget, by simp [hname, hfailure]⟩
  · exact ⟨by simp [hname, htype, hfailure], row, hget, by simp [htype, hfailure]⟩
  · exact ⟨by simp [hname, htype, hfailure], row, hget, by simp [hname, htype, hfailure]⟩

/-- Nothing becomes of a row that the rows in order do not reach. -/
lemma nothing_of_lt (find? : Option (String → Option String))
    (hcount : m.typeDefs.rowCount < 2 ^ 24) (hrid : rid ≤ m.typeDefs.rowCount)
    (hlt : m.typeDefs.rows.length < rid) :
    (m.load find?).1.typesWith (TableId.typeDef.token rid) = [] ∧
      (m.load find?).1.errorsWith (TableId.typeDef.token rid) = [] := by
  rw [typesWith_load, errorsWith_load, filter_token_of_lt hcount hrid hlt]
  exact ⟨rfl, rfl⟩

/-- A row is accounted for when the rows in order reach it, or when it is the type that holds what
belongs to no type. -/
lemma accounts_iff (hcount : m.typeDefs.rowCount < 2 ^ 24) (hone : 1 ≤ rid)
    (hrid : rid ≤ m.typeDefs.rowCount) :
    m.Accounts (m.load find?).1 rid ↔ m.IsModuleType rid ∨ rid ≤ m.typeDefs.rows.length := by
  by_cases hle : rid ≤ m.typeDefs.rows.length
  · exact iff_of_true (accounts_of_le find? hcount hone hle).1 (.inr hle)
  · obtain ⟨htypes, herrors⟩ := nothing_of_lt find? hcount hrid (Nat.not_le.mp hle)
    rw [Accounts, ExactlyOne, htypes, herrors]
    simp [hle]

/-- The types that are listed are in the order of their tokens. -/
lemma pairwise_types (hcount : m.typeDefs.rowCount < 2 ^ 24) :
    (m.load find?).1.types.Pairwise fun s t => s.token.value < t.token.value := by
  have hrids : m.typeDefs.rows.Pairwise fun row row' => row.rid < row'.rid := by
    rw [← List.pairwise_map, map_rid_rows]
    exact List.pairwise_lt_range'
  have hlength := length_rows_le m
  have htoken : ∀ row type, (m.outcome row).type? = some type → type.token = row.token := by
    intro row type h
    rcases m.outcome_cases row with ⟨-, hnone, -⟩ | ⟨-, ⟨type', hsome, htoken⟩, -⟩ | ⟨-, hnone, -⟩
    · rw [hnone] at h
      cases h
    · rw [hsome] at h
      cases h
      exact htoken
    · rw [hnone] at h
      cases h
  rw [types_load, List.filterMap_map]
  refine List.pairwise_filterMap.mpr (hrids.imp_of_mem ?_)
  intro row row' hrow hrow' hlt type htype type' htype'
  obtain ⟨-, hle⟩ := rid_of_mem_rows hrow
  obtain ⟨-, hle'⟩ := rid_of_mem_rows hrow'
  rw [htoken row type htype, htoken row' type' htype', UInt32.lt_iff_toNat_lt]
  simp only [TypeDefRow.token, TableId.token, Token.toNat_ofParts]
  omega

/-- The types that are missing are those that left an error, and those, other than the ones that
hold what belongs to no type, that the rows in order do not reach. -/
lemma missing_eq (hcount : m.typeDefs.rowCount < 2 ^ 24) :
    m.missing (m.load find?).1 =
      errorCount (m.load find?).1.diagnostics +
        (List.range' (1 + m.typeDefs.rows.length)
            (m.typeDefs.rowCount - m.typeDefs.rows.length)).countP
          fun rid => ¬m.IsModuleType rid := by
  have hlength := length_rows_le m
  have hsplit : List.range' 1 m.typeDefs.rowCount =
      List.range' 1 m.typeDefs.rows.length ++
        List.range' (1 + m.typeDefs.rows.length)
          (m.typeDefs.rowCount - m.typeDefs.rows.length) := by
    rw [List.range'_append_1]
    congr 1
    omega
  rw [missing, hsplit, List.countP_append, errorCount_load]
  congr 1
  · rw [← map_rid_rows, List.countP_map]
    refine List.countP_congr fun row hrow => ?_
    obtain ⟨hone, hle⟩ := rid_of_mem_rows hrow
    obtain ⟨-, row', hget, hmissing⟩ := accounts_of_le find? hcount hone hle
    rw [get?_rid_of_mem_rows hrow] at hget
    cases hget
    simpa using hmissing
  · refine List.countP_congr fun rid hmem => ?_
    rw [List.mem_range'_1] at hmem
    have hrid : rid ≤ m.typeDefs.rowCount := by omega
    obtain ⟨htypes, -⟩ := nothing_of_lt find? hcount hrid (by omega)
    simp [htypes]

/-- The errors are as many as the types that are missing exactly when the rows in order reach all
rows. -/
lemma errorCount_eq_missing_iff (hcount : m.typeDefs.rowCount < 2 ^ 24) :
    errorCount (m.load find?).1.diagnostics = m.missing (m.load find?).1 ↔
      m.typeDefs.rowCount ≤ m.typeDefs.rows.length := by
  rw [missing_eq hcount]
  constructor
  · intro h
    by_contra hlt
    have hunreached : 1 + m.typeDefs.rows.length ∈ List.range' (1 + m.typeDefs.rows.length)
        (m.typeDefs.rowCount - m.typeDefs.rows.length) := by
      rw [List.mem_range'_1]
      omega
    have hnone := not_isModuleType_of_get?_eq_none (get?_behind_rows (Nat.not_le.mp hlt))
    rw [Nat.add_comm] at hnone
    have hpos : 0 < (List.range' (1 + m.typeDefs.rows.length)
        (m.typeDefs.rowCount - m.typeDefs.rows.length)).countP fun rid => ¬m.IsModuleType rid :=
      List.countP_pos_iff.mpr ⟨_, hunreached, by simpa using hnone⟩
    omega
  · intro hle
    rw [Nat.sub_eq_zero_of_le hle]
    simp

end Outcomes

/-- **Which types are accounted for.** Let a module be opened from any metadata, with less than 2²⁴
type definitions. Loading it succeeds, and lists types in the order of their tokens. Exactly one of
three things becomes of a row, namely that it is the type that holds what belongs to no type, that
it is listed once, or that there is one error about it, exactly when it is that type or all rows up
to it can be read. So the errors are as many as the types that are missing exactly when all rows can
be read.

**Proof sketch.** The loader resolves the rows in order up to the first that cannot be read
(`Table.le_length_rows_iff`). Each of them is resolved to one of the three (`outcome_cases`), and
since rows have different tokens, what is said under a token is what became of its row. About a row
behind them nothing is said. -/
theorem types_accounted_for {metadata : ByteArray} {m : OpenModule}
    (find? : Option (String → Option String)) (hopen : ofMetadata metadata = .ok m)
    (hcount : m.typeDefs.rowCount < 2 ^ 24) :
    loadMetadata metadata find? = .ok (m.load find?) ∧
    ((m.load find?).1.types.Pairwise fun s t => s.token.value < t.token.value) ∧
    (∀ rid, 1 ≤ rid → rid ≤ m.typeDefs.rowCount →
      (m.Accounts (m.load find?).1 rid ↔
        m.IsModuleType rid ∨ ∀ j, 1 ≤ j → j ≤ rid → (m.typeDefs.get? j).isSome)) ∧
    (errorCount (m.load find?).1.diagnostics = m.missing (m.load find?).1 ↔
      ∀ j, 1 ≤ j → j ≤ m.typeDefs.rowCount → (m.typeDefs.get? j).isSome) := by
  refine ⟨?_, pairwise_types hcount, ?_, ?_⟩
  · rw [loadMetadata, hopen]
    rfl
  · intro rid hone hrid
    rw [accounts_iff hcount hone hrid, le_length_rows_iff hrid]
  · rw [errorCount_eq_missing_iff hcount, le_length_rows_iff (Nat.le_refl _)]

/-! ## A module that loses types -/

/-- Metadata with three type definitions, of which the base type of the second has a tag that
selects no table. -/
def unreadableRowMetadata : ByteArray :=
  ⟨
    #[0x42, 0x53, 0x4A, 0x42, 0x01, 0x00, 0x01, 0x00, 0x00, 0x00, 0x00, 0x00, 0x04, 0x00, 0x00,
      0x00, 0x76, 0x34, 0x00, 0x00, 0x00, 0x00, 0x02, 0x00, 0x40, 0x00, 0x00, 0x00, 0x46, 0x00,
      0x00, 0x00, 0x23, 0x7E, 0x00, 0x00, 0x38, 0x00, 0x00, 0x00, 0x08, 0x00, 0x00, 0x00, 0x23,
      0x53, 0x74, 0x72, 0x69, 0x6E, 0x67, 0x73, 0x00, 0x00, 0x00, 0x00, 0x00, 0x41, 0x00, 0x42,
      0x00, 0x43, 0x00, 0x00, 0x00, 0x00, 0x00, 0x00, 0x02, 0x00, 0x00, 0x01, 0x04, 0x00, 0x00,
      0x00, 0x00, 0x00, 0x00, 0x00, 0x00, 0x00, 0x00, 0x00, 0x00, 0x00, 0x00, 0x00, 0x03, 0x00,
      0x00, 0x00, 0x00, 0x00, 0x00, 0x00, 0x01, 0x00, 0x00, 0x00, 0x00, 0x00, 0x01, 0x00, 0x01,
      0x00, 0x00, 0x00, 0x00, 0x00, 0x03, 0x00, 0x00, 0x00, 0x03, 0x00, 0x01, 0x00, 0x01, 0x00,
      0x00, 0x00, 0x00, 0x00, 0x05, 0x00, 0x00, 0x00, 0x00, 0x00, 0x01, 0x00, 0x01, 0x00]⟩

/-- **An unreadable row hides types.** The module has three type definitions with names of their
own, and loading it succeeds. The first is listed; of the second, which cannot be read, and of the
third, which can, nothing becomes, and there is no error at all while two types are missing. -/
theorem unreadable_row_hides_types :
    ∃ m, ofMetadata unreadableRowMetadata = .ok m ∧
      loadMetadata unreadableRowMetadata none = .ok (m.load none) ∧
      m.typeDefs.rowCount = 3 ∧
      ¬m.Accounts (m.load none).1 2 ∧ ¬m.Accounts (m.load none).1 3 ∧
      m.typeName? 3 = some "C" ∧
      errorCount (m.load none).1.diagnostics = 0 ∧ m.missing (m.load none).1 = 2 := by
  obtain ⟨m, hopen, htest⟩ : ∃ m, ofMetadata unreadableRowMetadata = .ok m ∧
      decide (m.typeDefs.rowCount = 3 ∧
        ¬m.Accounts (m.load none).1 2 ∧ ¬m.Accounts (m.load none).1 3 ∧
        m.typeName? 3 = some "C" ∧
        errorCount (m.load none).1.diagnostics = 0 ∧ m.missing (m.load none).1 = 2) = true :=
    exists_ok_of_any (by decide +kernel)
  refine ⟨m, hopen, ?_, of_decide_eq_true htest⟩
  rw [loadMetadata, hopen]
  rfl

/-- The same module by the general law: its first row is accounted for, and its third is not. -/
theorem accounts_unreadableRowMetadata :
    ∃ m, ofMetadata unreadableRowMetadata = .ok m ∧ m.typeDefs.rowCount < 2 ^ 24 ∧
      m.Accounts (m.load none).1 1 ∧ ¬m.Accounts (m.load none).1 3 := by
  obtain ⟨m, hopen, htest⟩ : ∃ m, ofMetadata unreadableRowMetadata = .ok m ∧
      decide (m.typeDefs.rowCount = 3 ∧ (m.typeDefs.get? 1).isSome ∧
        ¬(m.typeDefs.get? 2).isSome ∧ ¬m.IsModuleType 3) = true :=
    exists_ok_of_any (by decide +kernel)
  obtain ⟨hrows, hfirst, hsecond, hthird⟩ := of_decide_eq_true htest
  obtain ⟨-, -, haccounts, -⟩ := types_accounted_for none hopen (by omega)
  refine ⟨m, hopen, by omega, ?_, ?_⟩
  · refine (haccounts 1 (by omega) (by omega)).mpr (.inr fun j hone hj => ?_)
    obtain rfl : j = 1 := by omega
    exact hfirst
  · intro h
    rcases (haccounts 3 (by omega) (by omega)).mp h with hmodule | hall
    · exact hthird hmodule
    · exact hsecond (hall 2 (by omega) (by omega))

end OpenModule

end TypeInventory
