import TypeInventory.Proofs.Naming.Recursion

set_option relaxedAutoImplicit false
set_option autoImplicit false

/-!
# Modules that name types alike

The names of types are read from some parts of a module only: from the strings, the tables of types,
the signatures of constructed types, and the relations between types. Modules that hold the same
there name all types alike, whatever else they hold and wherever in their bytes it lies.

## Main definitions

* `Table.SameRows`, `Table.Holds` — tables of the same rows, and of given ones.
* `MetadataModule.NamesAlike` — modules that hold the same wherever names are read from.

## Main results

* `MetadataModule.NamesAlike.fullName_eq`, `MetadataModule.NamesAlike.typeKind_eq` — defined types
  have the same full names and are of the same kinds.
* `MetadataModule.NamesAlike.nameWithin_eq` — signatures and tokens have the same names at any
  depth.
-/

namespace TypeInventory

namespace Table

variable {α : Type} [MetadataRow α]

/-- Two tables have the same rows, wherever these lie. -/
structure SameRows (t t' : Table α) : Prop where
  /-- They have equally many rows. -/
  rowCount : t'.rowCount = t.rowCount
  /-- Each row is the same, or unreadable in both. -/
  get? : ∀ rid, t'.get? rid = t.get? rid

/-- A table has the same rows as itself. -/
lemma SameRows.refl (t : Table α) : t.SameRows t :=
  ⟨rfl, fun _ => rfl⟩

/-- A table holds just the given rows, and all of them can be read. -/
def Holds (t : Table α) (rows : List α) : Prop :=
  t.rowCount = rows.length ∧ (List.range' 1 t.rowCount).map t.get? = rows.map some

instance [DecidableEq α] (t : Table α) (rows : List α) : Decidable (t.Holds rows) :=
  inferInstanceAs (Decidable (_ ∧ _))

section Holds

variable {t t' : Table α} {rows : List α}

/-- The rows that a table holds are found under their numbers. -/
lemma Holds.get?_succ (h : t.Holds rows) (i : ℕ) : t.get? (i + 1) = rows[i]? := by
  obtain ⟨hcount, hrows⟩ := h
  by_cases hi : i < t.rowCount
  · have hplace := congrArg (·[i]?) hrows
    simpa [hi, hcount ▸ hi, Nat.add_comm 1 i] using hplace
  · rw [List.getElem?_eq_none (by omega), Table.get?, if_pos (by omega)]

/-- Rows are found under the numbers from one on up to how many there are. -/
lemma Holds.range_of_get? (h : t.Holds rows) {rid : ℕ} {row : α} (hrow : t.get? rid = some row) :
    1 ≤ rid ∧ rid ≤ rows.length := by
  by_contra hrange
  rw [← h.1] at hrange
  rw [Table.get?, if_pos (by omega)] at hrow
  cases hrow

/-- Tables that hold the same rows have the same rows. -/
lemma Holds.sameRows (h : t.Holds rows) (h' : t'.Holds rows) : t.SameRows t' := by
  refine ⟨h'.1.trans h.1.symm, fun rid => ?_⟩
  cases rid with
  | zero => rw [Table.get?, Table.get?, if_pos (.inl rfl), if_pos (.inl rfl)]
  | succ i => rw [h.get?_succ, h'.get?_succ]

end Holds

end Table

namespace MetadataModule

/-- Two modules hold the same wherever the names of types are read from. -/
structure NamesAlike (m m' : MetadataModule) : Prop where
  /-- They have the same strings. -/
  strings : m'.strings = m.strings
  /-- They refer to the same types. -/
  typeRefs : m.typeRefs.SameRows m'.typeRefs
  /-- They define the same types. -/
  typeDefs : m.typeDefs.SameRows m'.typeDefs
  /-- They have the same constructed types. -/
  typeSpecs : m.typeSpecs.SameRows m'.typeSpecs
  /-- Constructed types have the same signatures. -/
  signatures : ∀ rid spec, m.typeSpecs.get? rid = some spec →
    m'.blobs.get spec.signature = m.blobs.get spec.signature
  /-- The same types enclose the same types. -/
  enclosing : ∀ rid : ℕ, m'.enclosing[rid]? = m.enclosing[rid]?
  /-- Types have generic parameters of the same names. -/
  typeGenerics : ∀ rid : ℕ, m'.typeGenerics[rid]? = m.typeGenerics[rid]?

namespace NamesAlike

variable {m m' : MetadataModule} (h : m.NamesAlike m')
include h

/-! ## Full names -/

/-- Defined types have the same namespaces and names. -/
lemma typeDefNames_eq (rid : ℕ) : m'.typeDefNames rid = m.typeDefNames rid := by
  unfold ModuleTables.typeDefNames
  rw [h.typeDefs.get?, h.strings]

/-- Types that are referred to have the same namespaces and names. -/
lemma typeRefNames_eq (rid : ℕ) : m'.typeRefNames rid = m.typeRefNames rid := by
  unfold ModuleTables.typeRefNames
  rw [h.typeRefs.get?, h.strings]

/-- The chain of enclosing types is the same, however often it may go up. -/
lemma nameParts_eq (levels rid : ℕ) (inner : List String) :
    m'.nameParts levels rid inner = m.nameParts levels rid inner := by
  induction levels generalizing rid inner with
  | zero =>
    unfold nameParts
    rw [h.typeDefNames_eq, h.enclosing]
    cases m.enclosing[rid]? <;> rfl
  | succ levels ih =>
    unfold nameParts
    rw [h.typeDefNames_eq, h.enclosing]
    cases m.enclosing[rid]? with
    | none => rfl
    | some outer => exact bind_congr fun _ => ih outer _

/-- Defined types have the same full names. -/
lemma fullName_eq (rid : ℕ) : m'.fullName rid = m.fullName rid := by
  unfold fullName
  rw [h.nameParts_eq]

/-- Types are of the same kinds. -/
lemma typeKind_eq (row : TypeDefRow) : m'.typeKind row = m.typeKind row := by
  unfold typeKind baseName?
  simp only [h.fullName_eq, h.typeRefNames_eq]

/-! ## Names in signatures -/

/-- Instantiations start from the same types. -/
lemma instantiatedType_eq (sig : TypeSig) : m'.instantiatedType sig = m.instantiatedType sig := by
  have htoken : ∀ token, m'.tokenNames? token = m.tokenNames? token := by
    intro token
    unfold ModuleTables.tokenNames?
    rw [h.typeDefNames_eq, h.typeRefNames_eq]
  unfold instantiatedType
  simp only [htoken]

/-- A look at a token tells the same. -/
lemma lookAtToken_eq (token : Token) : m'.lookAtToken token = m.lookAtToken token := by
  unfold lookAtToken
  rw [h.typeDefs.get?, h.strings, h.typeGenerics, h.enclosing, h.typeRefNames_eq, h.typeSpecs.get?]
  cases hrow : m.typeSpecs.get? token.row with
  | none => rfl
  | some spec => simp only [h.signatures _ _ hrow]

/-- A look at a node tells the same. -/
lemma look_eq (scope : GenericScope) (node : NameNode) :
    m'.look scope node = m.look scope node := by
  cases node with
  | token token => exact h.lookAtToken_eq token
  | signature sig =>
    cases sig with
    | instantiation base args => simp only [look, h.instantiatedType_eq]
    | _ => rfl

/-- **Modules that hold the same wherever names are read from name all types alike**, at any
depth. -/
lemma nameWithin_eq (scope : GenericScope) (levels : ℕ) :
    m'.nameWithin scope levels = m.nameWithin scope levels := by
  induction levels with
  | zero =>
    funext node
    rw [nameWithin_zero, nameWithin_zero]
  | succ levels ih =>
    funext node
    rw [nameWithin_succ, nameWithin_succ, h.look_eq, ih]

/-- The same for signatures. -/
lemma signatureName_eq (scope : GenericScope) : m'.signatureName scope = m.signatureName scope := by
  funext sig
  exact congrFun (h.nameWithin_eq scope nestingLimit) (.signature sig)

/-- The same for parameters and return values. -/
lemma paramName_eq (scope : GenericScope) : m'.paramName scope = m.paramName scope := by
  funext param
  unfold paramName
  rw [h.signatureName_eq]

end NamesAlike

end MetadataModule

end TypeInventory
