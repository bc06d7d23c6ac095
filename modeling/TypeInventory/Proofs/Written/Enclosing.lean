import TypeInventory.Proofs.Module.GenericParameters
import TypeInventory.Proofs.Naming.FullNames
import TypeInventory.Proofs.Written.Loading

set_option relaxedAutoImplicit false
set_option autoImplicit false

/-!
# Written types that enclose each other

Types without members that enclose each other are written as two tables, one of the types and one of
the pairs of a nested type and the type around it. There may be so many of them that their numbers
take more bits than tokens have.

## Main definitions

* `EnclosingDecl`, `EnclosingDecl.metadata` — types that enclose each other, and their metadata.
* `EnclosingDecl.StoredIn` — modules with these types and these pairs.

## Main results

* `EnclosingDecl.size_metadata_le` — how large the metadata are.
* `EnclosingDecl.exists_ofMetadata_eq_ok` — they are opened, and the types are stored in the module.
* `EnclosingDecl.StoredIn.typeDefNames` — the names of the types.
-/

namespace TypeInventory

/-! ## Writing -/

/-- Types that enclose each other. -/
structure EnclosingDecl where
  /-- The places of their names among the strings. -/
  names : List ℕ
  /-- The rows of nested types, each with the row of the type around it. -/
  pairs : List (ℕ × ℕ)

/-- Three names and the places of them among the strings. -/
def placedLetters : List (ℕ × String) :=
  [(1, "A"), (3, "B"), (5, "C")]

/-- Heaps with these names at these places, and without signatures. -/
def letterHeaps : Heaps where
  strings := [0x00, 0x41, 0x00, 0x42, 0x00, 0x43, 0x00]
  blobs := [0x00]
  wideStrings := false
  wideGuids := false
  wideBlobs := false

namespace EnclosingDecl

variable (D : EnclosingDecl)

/-- The cells of the row of a type. It has no namespace, no base and no members, and it is not
public. -/
def typeCells (name : ℕ) : List (ℕ × ℕ) :=
  [(4, 0), (2, name), (2, 0), (indexWidth 14 D.names.length, 0), (2, 1), (2, 1)]

/-- The cells of the row of a pair. -/
def pairCells (pair : ℕ × ℕ) : List (ℕ × ℕ) :=
  [(indexWidth 16 D.names.length, pair.1), (indexWidth 16 D.names.length, pair.2)]

/-- The tables of the types and of the pairs. -/
def tableSource : TableSource where
  flags := 0
  mask := tableMask [.typeDef, .nestedClass]
  rows
    | .typeDef => D.names.mapIdx fun _ name => cellBytes (D.typeCells name)
    | .nestedClass => D.pairs.mapIdx fun _ pair => cellBytes (D.pairCells pair)
    | _ => []

/-- The metadata of the types. -/
def metadata : ByteArray :=
  letterHeaps.metadataWith D.tableSource

/-- Types that can be written: the places of their names take two bytes, and the pairs are about
them. -/
structure Fits : Prop where
  names : ∀ name ∈ D.names, name < 2 ^ 16
  pairs : ∀ pair ∈ D.pairs, pair.1 ≤ D.names.length ∧ pair.2 ≤ D.names.length
  size : 16 * D.names.length + 8 * D.pairs.length < 2 ^ 31

/-- The row of the type at a position. -/
def typeRow (i name : ℕ) : TypeDefRow where
  rid := i + 1
  flags := 0
  typeName := name
  typeNamespace := 0
  baseType := ⟨.typeDef, 0⟩
  fieldList := 1
  methodList := 1

/-- The row of the pair at a position. -/
def pairRow (i : ℕ) (pair : ℕ × ℕ) : NestedClassRow :=
  ⟨i + 1, pair.1, pair.2⟩

/-- A module with the types and the pairs, and with no generic parameters. -/
structure StoredIn (m : OpenModule) : Prop where
  typeDef : ∀ i, m.indexed.typeDefs.get? (i + 1) = D.names[i]?.map (typeRow i)
  nestedClasses : m.nestedClasses = D.pairs.mapIdx pairRow
  genericParams : m.genericParams.rows = []
  strings : m.strings = ⟨⟨(paddedBytes letterHeaps.strings).toArray⟩⟩

variable {D}

/-! ## Widths -/

/-- Row numbers are as wide as the number of types makes them, and places of strings are narrow. -/
lemma columnWidth_tableSource (D : EnclosingDecl) :
    D.tableSource.layout.columnWidth .string = 2 ∧
    D.tableSource.layout.columnWidth (.row .typeDef) = indexWidth 16 D.names.length ∧
    D.tableSource.layout.columnWidth (.coded .typeDefOrRef) = indexWidth 14 D.names.length := by
  have hnarrow : D.tableSource.layout.wideStrings = false := by
    rw [TableSource.layout, tableSource, Nat.zero_testBit]
  exact ⟨congrArg Layout.width hnarrow, (Layout.rowIndexWidth_eq_indexWidth _ .typeDef).trans
    (congrArg (indexWidth 16) List.length_mapIdx),
    (Layout.codedWidth_eq_indexWidth _ rfl rfl).trans
      (congrArg (indexWidth 14) List.length_mapIdx)⟩

/-- The cells of types are as wide as their columns. -/
lemma map_fst_typeCells (D : EnclosingDecl) (name : ℕ) :
    (D.typeCells name).map Prod.fst =
      TableId.typeDef.columns.map D.tableSource.layout.columnWidth := by
  obtain ⟨hstring, -, hbase⟩ := D.columnWidth_tableSource
  have hdouble : D.tableSource.layout.columnWidth .word32 = 4 := rfl
  have hfield : D.tableSource.layout.columnWidth (.row .field) = 2 := rfl
  have hmethod : D.tableSource.layout.columnWidth (.row .methodDef) = 2 := rfl
  simp only [TableId.columns, List.map_cons, List.map_nil, hstring, hbase, hdouble, hfield,
    hmethod]
  rfl

/-- The cells of pairs are as wide as their columns. -/
lemma map_fst_pairCells (D : EnclosingDecl) (pair : ℕ × ℕ) :
    (D.pairCells pair).map Prod.fst =
      TableId.nestedClass.columns.map D.tableSource.layout.columnWidth := by
  simp only [TableId.columns, List.map_cons, List.map_nil, D.columnWidth_tableSource.2.1]
  rfl

/-- A number takes at most four bytes. -/
lemma indexWidth_le (bits rows : ℕ) : indexWidth bits rows ≤ 4 := by
  unfold indexWidth
  split_ifs <;> decide

/-- A row of a type takes at most 16 bytes, a row of a pair at most eight. -/
lemma rowSize_le (D : EnclosingDecl) :
    D.tableSource.layout.rowSize .typeDef ≤ 16 ∧ D.tableSource.layout.rowSize .nestedClass ≤ 8 := by
  have hbase := indexWidth_le 14 D.names.length
  have hrow := indexWidth_le 16 D.names.length
  rw [Layout.rowSize_eq_columnsWidth, Layout.rowSize_eq_columnsWidth, Layout.columnsWidth,
    Layout.columnsWidth, ← D.map_fst_typeCells 0, ← D.map_fst_pairCells (0, 0)]
  simp only [typeCells, pairCells, List.map_cons, List.map_nil, List.sum_cons, List.sum_nil]
  omega

/-- A row number fits its width. -/
lemma Fits.lt_of_le (h : D.Fits) {row : ℕ} (hrow : row ≤ D.names.length) :
    row < 2 ^ (8 * indexWidth 16 D.names.length) := by
  have hsize := h.size
  unfold indexWidth
  split_ifs with hnarrow
  · exact Nat.lt_of_le_of_lt hrow hnarrow
  · omega

/-- **The tables of the types can be written.** -/
lemma fits_tableSource (h : D.Fits) : D.tableSource.Fits := by
  have hmask : D.tableSource.mask = tableMask [.typeDef, .nestedClass] := rfl
  have hsize := h.size
  have hlength : ∀ (t : TableId) (cells : List (ℕ × ℕ)),
      cells.map Prod.fst = t.columns.map D.tableSource.layout.columnWidth →
      (cellBytes cells).length = D.tableSource.layout.rowSize t := by
    intro t cells hwidths
    rw [length_cellBytes, hwidths, Layout.rowSize_eq_columnsWidth, Layout.columnsWidth]
  refine ⟨Nat.two_pow_pos 6, by rw [hmask]; decide, by rw [hmask]; decide, fun t hrows => ?_,
    fun t => ?_, fun t => ?_⟩
  · rw [hmask]
    cases t with
    | typeDef | nestedClass => decide
    | _ => exact absurd rfl hrows
  · cases t with
    | typeDef =>
      show (D.names.mapIdx _).length < _
      rw [List.length_mapIdx]
      omega
    | nestedClass =>
      show (D.pairs.mapIdx _).length < _
      rw [List.length_mapIdx]
      omega
    | _ => exact Nat.two_pow_pos 32
  · intro row hrow
    cases t with
    | typeDef =>
      obtain ⟨i, hi, rfl⟩ := List.mem_mapIdx.mp hrow
      exact hlength _ _ (D.map_fst_typeCells _)
    | nestedClass =>
      obtain ⟨i, hi, rfl⟩ := List.mem_mapIdx.mp hrow
      exact hlength _ _ (D.map_fst_pairCells _)
    | _ => cases hrow

/-- The tables take 32 bytes and those of their rows. -/
lemma length_bytes_tableSource (h : D.Fits) :
    D.tableSource.bytes.length =
      32 + (D.names.length * D.tableSource.layout.rowSize .typeDef +
        D.pairs.length * D.tableSource.layout.rowSize .nestedClass) := by
  have hcounts : (D.tableSource.countBytes TableId.all).length = 8 := by
    rw [TableSource.length_countBytes]
    show 4 * TableId.all.countP (fun t => (tableMask [.typeDef, .nestedClass]).testBit t.number) = 8
    decide
  have htypes : (D.tableSource.rows .typeDef).flatten.length =
      D.names.length * D.tableSource.layout.rowSize .typeDef :=
    (TableSource.length_rows_flatten (fits_tableSource h) .typeDef).trans
      (congrArg (· * _) List.length_mapIdx)
  have hpairs : (D.tableSource.rows .nestedClass).flatten.length =
      D.pairs.length * D.tableSource.layout.rowSize .nestedClass :=
    (TableSource.length_rows_flatten (fits_tableSource h) .nestedClass).trans
      (congrArg (· * _) List.length_mapIdx)
  have hrows : D.tableSource.rowBytes TableId.all =
      (D.tableSource.rows .typeDef).flatten ++ (D.tableSource.rows .nestedClass).flatten := by
    simp [TableSource.rowBytes, TableId.all, tableSource]
  rw [TableSource.bytes]
  simp only [List.length_append, length_littleEndianBytes, hcounts, hrows, htypes, hpairs]
  omega

/-- **How large the metadata are**: the rows, and less than 200 bytes around them. -/
lemma size_metadata_le (h : D.Fits) :
    D.metadata.size ≤ 16 * D.names.length + 8 * D.pairs.length + 200 := by
  obtain ⟨htype, hpair⟩ := D.rowSize_le
  have htypes := Nat.mul_le_mul_left D.names.length htype
  have hpairs := Nat.mul_le_mul_left D.pairs.length hpair
  have hheaps : letterHeaps.strings.length = 7 ∧ letterHeaps.blobs.length = 1 := ⟨rfl, rfl⟩
  rw [metadata, Heaps.size_metadataWith, length_bytes_tableSource h, hheaps.1, hheaps.2]
  omega

/-! ## Reading -/

/-- The row of a type is read back. -/
lemma reads_typeDef (h : D.Fits) {i name : ℕ} (hname : D.names[i]? = some name) :
    (RowKind.typeDef.read D.tableSource.layout (i + 1)).Reads (cellBytes (D.typeCells name))
      (typeRow i name) := by
  have hfit : CellsFit (D.typeCells name) := by
    simp only [CellsFit, typeCells, List.forall_mem_cons]
    exact ⟨Nat.two_pow_pos _, h.names name (List.mem_of_getElem? hname), Nat.two_pow_pos _,
      Nat.two_pow_pos _, by decide, by decide, List.forall_mem_nil _⟩
  have hbase : Column.cell? (.coded .typeDefOrRef) 0 = some (.index ⟨.typeDef, 0⟩) := by decide
  have hvalues : List.Forall₂ (fun x y => Column.cell? x.1 x.2 = some y)
      (RowKind.typeDef.table.columns.zip ((D.typeCells name).map Prod.snd))
      [.number 0, .number name, .number 0, .index ⟨.typeDef, 0⟩, .number 1, .number 1] :=
    .cons rfl (.cons rfl (.cons rfl (.cons hbase (.cons rfl (.cons rfl .nil)))))
  exact RowKind.reads_cellBytes (D.map_fst_typeCells name) hfit hvalues

/-- The row of a pair is read back. -/
lemma reads_nestedClass (h : D.Fits) {i : ℕ} {pair : ℕ × ℕ} (hpair : D.pairs[i]? = some pair) :
    (RowKind.nestedClass.read D.tableSource.layout (i + 1)).Reads (cellBytes (D.pairCells pair))
      (pairRow i pair) := by
  obtain ⟨hinner, houter⟩ := h.pairs pair (List.mem_of_getElem? hpair)
  have hfit : CellsFit (D.pairCells pair) := by
    simp only [CellsFit, pairCells, List.forall_mem_cons]
    exact ⟨h.lt_of_le hinner, h.lt_of_le houter, List.forall_mem_nil _⟩
  have hvalues : List.Forall₂ (fun x y => Column.cell? x.1 x.2 = some y)
      (RowKind.nestedClass.table.columns.zip ((D.pairCells pair).map Prod.snd))
      [.number pair.1, .number pair.2] :=
    .cons rfl (.cons rfl .nil)
  exact RowKind.reads_cellBytes (D.map_fst_pairCells pair) hfit hvalues

/-- **The metadata are opened, and the types are stored in the module.** -/
lemma exists_ofMetadata_eq_ok (h : D.Fits) :
    ∃ m, OpenModule.ofMetadata D.metadata = .ok m ∧ D.StoredIn m := by
  have hsize := size_metadata_le h
  have hrows := h.size
  obtain ⟨root, s, hs, hopen⟩ := letterHeaps.exists_ofMetadata_eq_ok (fits_tableSource h) rfl rfl
    (show D.metadata.size < 2 ^ 32 by omega)
  refine ⟨_, hopen, ?_⟩
  exact {
    typeDef := hs.get?_mapIdx .typeDef rfl fun i name hname => reads_typeDef h hname
    nestedClasses := by
      have hcount : (s.table RowKind.nestedClass.Row).rowCount = D.pairs.length :=
        (hs.rowCount_eq .nestedClass).trans List.length_mapIdx
      have hget := hs.get?_mapIdx .nestedClass rfl fun i pair hpair => reads_nestedClass h hpair
      exact Table.rows_eq_of_get? (hcount.trans List.length_mapIdx.symm) fun i =>
        (hget i).trans (List.getElem?_mapIdx (f := pairRow)).symm
    genericParams := hs.rows_eq_nil .genericParam rfl
    strings := rfl }

/-- The names of types are the letters at their places. -/
lemma StoredIn.typeDefNames {m : OpenModule} (h : D.StoredIn m) {i : ℕ} {letter : ℕ × String}
    (hletter : letter ∈ placedLetters) (hname : D.names[i]? = some letter.1) :
    m.indexed.typeDefNames (i + 1) = .ok ("", letter.2) := by
  have hstring : m.strings.get letter.1 = .ok letter.2 := by
    rw [h.strings]
    simp only [placedLetters, List.mem_cons, List.not_mem_nil, or_false] at hletter
    rcases hletter with rfl | rfl | rfl <;> rfl
  have hempty : m.strings.get 0 = .ok "" := by
    rw [h.strings]
    rfl
  have hrow : m.indexed.typeDefs.get? (i + 1) = some (typeRow i letter.1) := by
    rw [h.typeDef, hname]
    rfl
  rw [ModuleTables.typeDefNames, hrow]
  show (m.strings.get 0 >>= fun typeNamespace =>
    m.strings.get letter.1 >>= fun name => pure (typeNamespace, name)) = _
  rw [hempty, hstring]
  rfl

/-- No type is public. -/
lemma StoredIn.flags_eq_zero {m : OpenModule} (h : D.StoredIn m) {rid : ℕ} {row : TypeDefRow}
    (hrow : m.indexed.typeDefs.get? rid = some row) : row.flags = 0 := by
  cases rid with
  | zero => cases hrow
  | succ i =>
    rw [h.typeDef] at hrow
    obtain ⟨name, -, rfl⟩ := Option.map_eq_some_iff.mp hrow
    rfl

end EnclosingDecl

end TypeInventory
