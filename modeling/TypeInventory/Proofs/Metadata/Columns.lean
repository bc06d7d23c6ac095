import TypeInventory.Metadata.Row
import TypeInventory.Proofs.Bytes.Reading

set_option relaxedAutoImplicit false
set_option autoImplicit false

/-!
# Rows are read column by column

A row is described twice: by the list of columns of its table, which gives the width of a row, and
by the reader of its kind, which names the columns one after another. This module proves that both
descriptions agree: a reader reads exactly the columns of its table from left to right, with the
widths that the layout gives them, and each field of the row is the value of one of them.

## Main definitions

* `RowKind` — the kinds of rows that are read, with `RowKind.Row` and `RowKind.table`.
* `Cell`, `Column.cell?` — what a column of a row holds, from the number that is stored in it.
* `Layout.stored` — the numbers that are stored in columns, place by place.
* `RowKind.ofCells` — the row whose fields are the given cells.
* `RowKind.IsPlain` — the kinds of rows that can be read whatever is stored in them.

## Main results

* `RowKind.read_eq_ofCells` — a reader of rows is a reader of columns.
* `RowKind.read_agrees_with_columns` — when a row can be read, where the cursor stands then, and
  what the fields are, all by the columns.
* `RowKind.isPlain_of_notMem` — all kinds of rows but three are plain.
-/

namespace TypeInventory

/-! ## Cells -/

/-- What a column of a row holds. -/
inductive Cell where
  /-- A number, a place in a heap, or a row of one table. -/
  | number (n : ℕ)
  /-- A row of one of several tables. -/
  | index (i : CodedIndex)
deriving DecidableEq, Repr

/-- The cell that a stored number stands for; nothing if it is a coded index whose tag selects no
table. -/
def Column.cell? : Column → ℕ → Option Cell
  | .coded kind, n => (CodedIndex.decode? kind n).map .index
  | _, n => some (.number n)

/-- Whether a number may be stored in a column: the tag of a coded index, its low bits, has to
select a table. -/
def Column.Admits : Column → ℕ → Prop
  | .coded kind, n => n % 2 ^ kind.tagBits < kind.tables.length
  | _, _ => True

/-- A number stands for a cell exactly when it may be stored. -/
lemma Column.isSome_cell?_iff (column : Column) (n : ℕ) :
    (column.cell? n).isSome ↔ column.Admits n := by
  cases column <;> simp [Column.cell?, Column.Admits, CodedIndex.decode?, Nat.one_shiftLeft]

/-- The number in cell `i` of a row. -/
def numberIn (cells : List Cell) (i : ℕ) : ℕ :=
  match cells[i]? with
  | some (.number n) => n
  | _ => 0

/-- The coded index in cell `i` of a row. -/
def indexIn (cells : List Cell) (i : ℕ) : CodedIndex :=
  match cells[i]? with
  | some (.index i) => i
  | _ => default

namespace Layout

/-- The numbers stored in columns that lie one after another from `start` on, each with its
column. -/
def stored (layout : Layout) (data : ByteArray) : List Column → ℕ → List (Column × ℕ)
  | [], _ => []
  | column :: columns, start =>
    (column, numberAt data start (layout.columnWidth column)) ::
      layout.stored data columns (start + layout.columnWidth column)

/-- The width of columns that lie one after another. -/
def columnsWidth (layout : Layout) (columns : List Column) : ℕ :=
  (columns.map layout.columnWidth).sum

/-- The width of a row is that of its columns. -/
lemma rowSize_eq_columnsWidth (layout : Layout) (t : TableId) :
    layout.rowSize t = layout.columnsWidth t.columns := by
  rw [rowSize, columnsWidth, List.sum, List.foldr_map]

/-- The numbers stored in a part of the data are those stored at the same places of the whole. -/
lemma stored_extract (layout : Layout) {data : ByteArray} {first stop start : ℕ}
    {columns : List Column} (h : first + start + layout.columnsWidth columns ≤ stop) :
    layout.stored (data.extract first stop) columns start =
      layout.stored data columns (first + start) := by
  induction columns generalizing start with
  | nil => rfl
  | cons column columns ih =>
    simp only [columnsWidth, List.map_cons, List.sum_cons] at h ih
    simp only [stored, numberAt_extract (show first + start + layout.columnWidth column ≤ stop by
      omega)]
    rw [ih (by omega), Nat.add_assoc]

/-- Row numbers take more than `bits` bits exactly when there are more rows than these can
number. -/
lemma lt_rowBits_iff {bits : ℕ} (hbits : 0 < bits) (rows : ℕ) :
    bits < rowBits rows ↔ 2 ^ bits ≤ rows := by
  by_cases h : rows = 0
  · subst h
    have hone : rowBits 0 = 1 := rfl
    have hpos := Nat.two_pow_pos bits
    omega
  · have hlog : bits ≤ rows.log2 ↔ 2 ^ bits ≤ rows := Nat.le_log2 h
    rw [rowBits, if_neg h]
    omega

/-- The width of a row number is the same by the bits that it takes and by the number of rows. -/
lemma rowIndexWidth_eq_width_isWide (layout : Layout) (t : TableId) :
    layout.rowIndexWidth t = width (layout.isWide t) := by
  simp only [rowIndexWidth, isWide, lt_rowBits_iff (show 0 < 16 by decide)]
  rfl

end Layout

/-! ## Reading cells -/

namespace Reader

/-- The next cell, in a column of the given kind. -/
def cell (layout : Layout) (column : Column) : Reader Cell := do
  let n ← word (layout.columnWidth column)
  match column.cell? n with
  | some cell => return cell
  | none => throw .outOfBounds

section CellForms

variable (layout : Layout)

/-- A cell of two bytes is a number. -/
lemma cell_word16 : cell layout .word16 = Cell.number <$> word 2 := by
  simp only [cell, Column.cell?, Layout.columnWidth, map_eq_pure_bind]

/-- A cell of four bytes is a number. -/
lemma cell_word32 : cell layout .word32 = Cell.number <$> word 4 := by
  simp only [cell, Column.cell?, Layout.columnWidth, map_eq_pure_bind]

/-- A cell for a string is its place. -/
lemma cell_string : cell layout .string = Cell.number <$> stringIndex layout := by
  simp only [cell, Column.cell?, Layout.columnWidth, map_eq_pure_bind, stringIndex, narrowOrWide]

/-- A cell for an identifier is its place. -/
lemma cell_guid : cell layout .guid = Cell.number <$> guidIndex layout := by
  simp only [cell, Column.cell?, Layout.columnWidth, map_eq_pure_bind, guidIndex, narrowOrWide]

/-- A cell for a blob is its place. -/
lemma cell_blob : cell layout .blob = Cell.number <$> blobIndex layout := by
  simp only [cell, Column.cell?, Layout.columnWidth, map_eq_pure_bind, blobIndex, narrowOrWide]

/-- A cell for a row of one table is its number: here both rules for the width meet. -/
lemma cell_row (t : TableId) : cell layout (.row t) = Cell.number <$> rowIndex layout t := by
  simp only [cell, Column.cell?, Layout.columnWidth, map_eq_pure_bind, rowIndex, narrowOrWide,
    Layout.rowIndexWidth_eq_width_isWide]

/-- A cell for a row of one of several tables is a coded index. -/
lemma cell_coded (kind : CodedKind) :
    cell layout (.coded kind) = Cell.index <$> coded layout kind := by
  simp only [cell, coded, Layout.columnWidth, map_bind]
  congr 1
  funext n
  cases h : CodedIndex.decode? kind n with
  | none =>
    simp only [Column.cell?, h, Option.map_none]
    rfl
  | some i => simp [Column.cell?, h]

end CellForms

variable {layout : Layout}

/-- A cell is read when its bytes are there and the number in them may be stored. -/
lemma run_cell_eq_ok_iff {column : Column} {c c' : Cursor} {x : Cell} :
    (cell layout column).run c = .ok x c' ↔
      c.pos + layout.columnWidth column ≤ c.data.size ∧
      column.cell? (numberAt c.data c.pos (layout.columnWidth column)) = some x ∧
      c' = ⟨c.data, c.pos + layout.columnWidth column⟩ := by
  rw [cell, run_bind_eq_ok_iff]
  constructor
  · rintro ⟨n, c₁, hn, hx⟩
    obtain ⟨hroom, rfl, rfl⟩ := run_word_eq_ok_iff.mp hn
    refine ⟨hroom, ?_⟩
    split at hx
    next y hy =>
      cases hx
      exact ⟨hy, rfl⟩
    next => cases hx
  · rintro ⟨hroom, hx, rfl⟩
    refine ⟨_, _, run_word_of_le hroom, ?_⟩
    rw [hx]
    rfl

/-- A cell that cannot be read is out of bounds. -/
lemma run_cell_eq_error {column : Column} {c c' : Cursor} {e : Fault}
    (h : (cell layout column).run c = .error e c') : e = .outOfBounds := by
  rcases run_bind_eq_error h with hword | ⟨n, c₁, -, hthrow⟩
  · exact run_word_eq_error hword
  · split at hthrow
    · cases hthrow
    · cases hthrow
      rfl

/-- Cells are read from left to right when all their bytes are there and each number may be
stored. No bytes are asked for where there are no columns. -/
lemma run_cells_eq_ok_iff {columns : List Column} {c c' : Cursor} {cells : List Cell} :
    (columns.mapM (cell layout)).run c = .ok cells c' ↔
      (columns ≠ [] → c.pos + layout.columnsWidth columns ≤ c.data.size) ∧
      List.Forall₂ (fun x y => Column.cell? x.1 x.2 = some y)
        (layout.stored c.data columns c.pos) cells ∧
      c' = ⟨c.data, c.pos + layout.columnsWidth columns⟩ := by
  induction columns generalizing c c' cells with
  | nil =>
    simp only [List.mapM_nil, EStateM.run_pure, EStateM.Result.ok.injEq, Layout.stored,
      List.forall₂_nil_left_iff, Layout.columnsWidth, List.map_nil, List.sum_nil]
    constructor
    · rintro ⟨rfl, rfl⟩
      exact ⟨fun h => absurd rfl h, rfl, rfl⟩
    · rintro ⟨-, rfl, rfl⟩
      exact ⟨rfl, rfl⟩
  | cons column columns ih =>
    have hwidth : layout.columnsWidth (column :: columns) =
        layout.columnWidth column + layout.columnsWidth columns := by
      simp [Layout.columnsWidth]
    rw [List.mapM_cons, run_bind_eq_ok_iff]
    constructor
    · rintro ⟨x, c₁, hx, hrest⟩
      obtain ⟨xs, c₂, hxs, hpure⟩ := run_bind_eq_ok_iff.mp hrest
      cases hpure
      obtain ⟨hroom, hcell, rfl⟩ := run_cell_eq_ok_iff.mp hx
      obtain ⟨hrooms, hcells, rfl⟩ := ih.mp hxs
      refine ⟨fun _ => ?_, .cons hcell hcells, ?_⟩
      · by_cases hnil : columns = []
        · subst hnil
          simpa [Layout.columnsWidth] using hroom
        · have := hrooms hnil
          simp only at this
          omega
      · rw [hwidth, Nat.add_assoc]
    · rintro ⟨hroom, hcells, rfl⟩
      replace hroom := hroom (List.cons_ne_nil _ _)
      rw [hwidth] at hroom ⊢
      rw [Layout.stored, List.forall₂_cons_left_iff] at hcells
      obtain ⟨x, xs, hcell, hrest, rfl⟩ := hcells
      have hx : (cell layout column).run c =
          .ok x ⟨c.data, c.pos + layout.columnWidth column⟩ :=
        run_cell_eq_ok_iff.mpr ⟨by omega, hcell, rfl⟩
      have hxs : (columns.mapM (cell layout)).run
            ⟨c.data, c.pos + layout.columnWidth column⟩ =
          .ok xs ⟨c.data, c.pos + layout.columnWidth column + layout.columnsWidth columns⟩ := by
        refine ih.mpr ⟨fun _ => ?_, hrest, rfl⟩
        simp only
        omega
      refine ⟨x, _, hx, ?_⟩
      rw [← Nat.add_assoc]
      exact run_bind_eq_ok_iff.mpr ⟨xs, _, hxs, rfl⟩

/-- Cells that cannot be read are out of bounds. -/
lemma run_cells_eq_error {columns : List Column} {c c' : Cursor} {e : Fault}
    (h : (columns.mapM (cell layout)).run c = .error e c') : e = .outOfBounds := by
  induction columns generalizing c with
  | nil => cases h
  | cons column columns ih =>
    rw [List.mapM_cons] at h
    rcases run_bind_eq_error h with hx | ⟨x, c₁, -, hrest⟩
    · exact run_cell_eq_error hx
    · rcases run_bind_eq_error hrest with hxs | ⟨xs, c₂, -, hpure⟩
      · exact ih hxs
      · cases hpure

end Reader

/-! ## Kinds of rows -/

/-- The kinds of rows that are read one by one. -/
inductive RowKind where
  | module
  | typeRef
  | typeDef
  | fieldPtr
  | field
  | methodPtr
  | methodDef
  | paramPtr
  | param
  | memberRef
  | customAttribute
  | typeSpec
  | assembly
  | assemblyRef
  | nestedClass
  | genericParam
deriving DecidableEq, Repr

namespace RowKind

/-- The rows of a kind. -/
def Row : RowKind → Type
  | module => ModuleRow
  | typeRef => TypeRefRow
  | typeDef => TypeDefRow
  | fieldPtr => FieldPtrRow
  | field => FieldRow
  | methodPtr => MethodPtrRow
  | methodDef => MethodDefRow
  | paramPtr => ParamPtrRow
  | param => ParamRow
  | memberRef => MemberRefRow
  | customAttribute => CustomAttributeRow
  | typeSpec => TypeSpecRow
  | assembly => AssemblyRow
  | assemblyRef => AssemblyRefRow
  | nestedClass => NestedClassRow
  | genericParam => GenericParamRow

/-- The rows of each kind know their table and how they are read. -/
instance instMetadataRow : (kind : RowKind) → MetadataRow kind.Row
  | module => inferInstanceAs (MetadataRow ModuleRow)
  | typeRef => inferInstanceAs (MetadataRow TypeRefRow)
  | typeDef => inferInstanceAs (MetadataRow TypeDefRow)
  | fieldPtr => inferInstanceAs (MetadataRow FieldPtrRow)
  | field => inferInstanceAs (MetadataRow FieldRow)
  | methodPtr => inferInstanceAs (MetadataRow MethodPtrRow)
  | methodDef => inferInstanceAs (MetadataRow MethodDefRow)
  | paramPtr => inferInstanceAs (MetadataRow ParamPtrRow)
  | param => inferInstanceAs (MetadataRow ParamRow)
  | memberRef => inferInstanceAs (MetadataRow MemberRefRow)
  | customAttribute => inferInstanceAs (MetadataRow CustomAttributeRow)
  | typeSpec => inferInstanceAs (MetadataRow TypeSpecRow)
  | assembly => inferInstanceAs (MetadataRow AssemblyRow)
  | assemblyRef => inferInstanceAs (MetadataRow AssemblyRefRow)
  | nestedClass => inferInstanceAs (MetadataRow NestedClassRow)
  | genericParam => inferInstanceAs (MetadataRow GenericParamRow)

/-- The table that holds the rows of a kind. -/
def table (kind : RowKind) : TableId :=
  MetadataRow.table kind.Row

/-- The reader of the rows of a kind. -/
def read (kind : RowKind) (layout : Layout) (rid : ℕ) : Reader kind.Row :=
  MetadataRow.read layout rid

/-- The row with number `rid` whose fields are the given cells. Each field takes the cell of its
column; a module has two columns more than fields. -/
def ofCells : (kind : RowKind) → ℕ → List Cell → kind.Row
  | module, rid, cells =>
    { rid, generation := numberIn cells 0, name := numberIn cells 1,
      mvid := numberIn cells 2 : ModuleRow }
  | typeRef, rid, cells =>
    { rid, resolutionScope := indexIn cells 0, typeName := numberIn cells 1,
      typeNamespace := numberIn cells 2 : TypeRefRow }
  | typeDef, rid, cells =>
    { rid, flags := numberIn cells 0, typeName := numberIn cells 1,
      typeNamespace := numberIn cells 2, baseType := indexIn cells 3,
      fieldList := numberIn cells 4, methodList := numberIn cells 5 : TypeDefRow }
  | fieldPtr, rid, cells => { rid, field := numberIn cells 0 : FieldPtrRow }
  | field, rid, cells =>
    { rid, flags := numberIn cells 0, name := numberIn cells 1,
      signature := numberIn cells 2 : FieldRow }
  | methodPtr, rid, cells => { rid, method := numberIn cells 0 : MethodPtrRow }
  | methodDef, rid, cells =>
    { rid, rva := numberIn cells 0, implFlags := numberIn cells 1, flags := numberIn cells 2,
      name := numberIn cells 3, signature := numberIn cells 4,
      paramList := numberIn cells 5 : MethodDefRow }
  | paramPtr, rid, cells => { rid, param := numberIn cells 0 : ParamPtrRow }
  | param, rid, cells =>
    { rid, flags := numberIn cells 0, sequence := numberIn cells 1,
      name := numberIn cells 2 : ParamRow }
  | memberRef, rid, cells =>
    { rid, parent := indexIn cells 0, name := numberIn cells 1,
      signature := numberIn cells 2 : MemberRefRow }
  | customAttribute, rid, cells =>
    { rid, parent := indexIn cells 0, maker := indexIn cells 1,
      value := numberIn cells 2 : CustomAttributeRow }
  | typeSpec, rid, cells => { rid, signature := numberIn cells 0 : TypeSpecRow }
  | assembly, rid, cells =>
    { rid, hashAlgId := numberIn cells 0, majorVersion := numberIn cells 1,
      minorVersion := numberIn cells 2, buildNumber := numberIn cells 3,
      revisionNumber := numberIn cells 4, flags := numberIn cells 5,
      publicKey := numberIn cells 6, name := numberIn cells 7,
      culture := numberIn cells 8 : AssemblyRow }
  | assemblyRef, rid, cells =>
    { rid, majorVersion := numberIn cells 0, minorVersion := numberIn cells 1,
      buildNumber := numberIn cells 2, revisionNumber := numberIn cells 3,
      flags := numberIn cells 4, publicKeyOrToken := numberIn cells 5,
      name := numberIn cells 6, culture := numberIn cells 7,
      hashValue := numberIn cells 8 : AssemblyRefRow }
  | nestedClass, rid, cells =>
    { rid, nestedClass := numberIn cells 0, enclosingClass := numberIn cells 1 : NestedClassRow }
  | genericParam, rid, cells =>
    { rid, number := numberIn cells 0, flags := numberIn cells 1, owner := indexIn cells 2,
      name := numberIn cells 3 : GenericParamRow }

/-- A reader of rows reads the columns of its table from left to right and puts their cells into
the fields.

**Proof sketch.** By cases on the kind. The columns of the table are a known list, and reading them
one after another is reading a number or a coded index for each (`Reader.cell_word16` and its
companions), which is the reader of the kind line by line. -/
theorem read_eq_ofCells (kind : RowKind) (layout : Layout) (rid : ℕ) :
    kind.read layout rid = kind.ofCells rid <$> kind.table.columns.mapM (Reader.cell layout) := by
  cases kind <;>
    simp only [table, MetadataRow.table, TableId.columns, List.mapM_cons, List.mapM_nil,
      bind_assoc, pure_bind, map_bind, map_pure, bind_map_left, Reader.cell_word16,
      Reader.cell_word32, Reader.cell_string, Reader.cell_guid, Reader.cell_blob,
      Reader.cell_row, Reader.cell_coded] <;>
    rfl

/-- Every table has columns. -/
lemma columns_ne_nil (kind : RowKind) : kind.table.columns ≠ [] := by
  cases kind <;> exact List.cons_ne_nil _ _

/-- A row is read when all its bytes are there and each number in it may be stored; its fields are
the cells that the numbers stand for. -/
lemma run_read_eq_ok_iff {kind : RowKind} {layout : Layout} {rid : ℕ} {c c' : Cursor}
    {row : kind.Row} :
    (kind.read layout rid).run c = .ok row c' ↔
      c.pos + layout.rowSize kind.table ≤ c.data.size ∧
      (∃ cells, List.Forall₂ (fun x y => Column.cell? x.1 x.2 = some y)
          (layout.stored c.data kind.table.columns c.pos) cells ∧ row = kind.ofCells rid cells) ∧
      c' = ⟨c.data, c.pos + layout.rowSize kind.table⟩ := by
  rw [read_eq_ofCells, map_eq_pure_bind, run_bind_eq_ok_iff, layout.rowSize_eq_columnsWidth]
  constructor
  · rintro ⟨cells, c₁, hcells, hpure⟩
    cases hpure
    obtain ⟨hroom, hstored, rfl⟩ := Reader.run_cells_eq_ok_iff.mp hcells
    exact ⟨hroom kind.columns_ne_nil, ⟨cells, hstored, rfl⟩, rfl⟩
  · rintro ⟨hroom, ⟨cells, hstored, rfl⟩, rfl⟩
    exact ⟨cells, _, Reader.run_cells_eq_ok_iff.mpr ⟨fun _ => hroom, hstored, rfl⟩, rfl⟩

/-- A row that cannot be read is out of bounds. -/
lemma run_read_eq_error {kind : RowKind} {layout : Layout} {rid : ℕ} {c c' : Cursor} {e : Fault}
    (h : (kind.read layout rid).run c = .error e c') : e = .outOfBounds := by
  rw [read_eq_ofCells, map_eq_pure_bind] at h
  rcases run_bind_eq_error h with hcells | ⟨cells, c₁, -, hpure⟩
  · exact Reader.run_cells_eq_error hcells
  · cases hpure

end RowKind

/-- Numbers stand for cells, one by one, exactly when each of them may be stored. -/
lemma exists_forall₂_cell?_iff {stored : List (Column × ℕ)} :
    (∃ cells, List.Forall₂ (fun x y => Column.cell? x.1 x.2 = some y) stored cells) ↔
      ∀ x ∈ stored, Column.Admits x.1 x.2 := by
  induction stored with
  | nil => simp
  | cons x stored ih =>
    rw [List.forall_mem_cons, ← ih, ← Column.isSome_cell?_iff, Option.isSome_iff_exists]
    constructor
    · rintro ⟨cells, h⟩
      obtain ⟨y, ys, hy, hys, rfl⟩ := List.forall₂_cons_left_iff.mp h
      exact ⟨⟨y, hy⟩, ys, hys⟩
    · rintro ⟨⟨y, hy⟩, ys, hys⟩
      exact ⟨y :: ys, .cons hy hys⟩

/-! ## Rows that can be read wherever their bytes are -/

/-- Whether every number may be stored in a column: no tag of a coded index is left over. -/
def Column.admitsAll : Column → Bool
  | .coded kind => 2 ^ kind.tagBits ≤ kind.tables.length
  | _ => true

lemma Column.admits_of_admitsAll {column : Column} (h : column.admitsAll) (n : ℕ) :
    column.Admits n := by
  cases column with
  | coded kind => exact Nat.lt_of_lt_of_le (Nat.mod_lt n (Nat.two_pow_pos _)) (of_decide_eq_true h)
  | word16 | word32 | string | guid | blob | row => trivial

namespace RowKind

/-- The rows of a kind that can be read whatever is stored in them: they have no coded index, or
none whose tag may select nothing. -/
def IsPlain (kind : RowKind) : Prop :=
  ∀ column ∈ kind.table.columns, ∀ n, column.Admits n

/-- Only rows of three kinds have coded indices with tags that select nothing. -/
lemma isPlain_of_notMem {kind : RowKind} (h : kind ∉ [typeDef, memberRef, customAttribute]) :
    kind.IsPlain := by
  have hall : ∀ column ∈ kind.table.columns, column.admitsAll := by
    cases kind <;> first | decide | simp at h
  exact fun column hcolumn => Column.admits_of_admitsAll (hall column hcolumn)

end RowKind

/-- What is stored in columns is stored in these columns. -/
lemma Layout.fst_mem_of_mem_stored {layout : Layout} {data : ByteArray} {columns : List Column}
    {start : ℕ} {x : Column × ℕ} (h : x ∈ layout.stored data columns start) : x.1 ∈ columns := by
  induction columns generalizing start with
  | nil => cases h
  | cons column columns ih =>
    rcases List.mem_cons.mp h with rfl | h
    · exact List.mem_cons_self
    · exact List.mem_cons_of_mem _ (ih h)

/-- **Readers of rows agree with the columns of their tables.** For each kind of rows, every layout,
all data and every place in them: the row there can be read exactly when the width of a row is left
and the tag of each coded index selects a table. A row that is read ends one width behind its start,
and its fields are the values of the columns, read from left to right with the widths of the
layout. A row that is not read is out of bounds.

**Proof sketch.** The reader of the kind reads the columns one after another (`read_eq_ofCells`). A
cell is read exactly when its bytes are there and its number may be stored, so by induction over
the columns all of them are read exactly when all bytes are there and all numbers may be stored. -/
theorem RowKind.read_agrees_with_columns (kind : RowKind) (layout : Layout) (rid : ℕ)
    (c : Cursor) :
    ((∃ row c', (kind.read layout rid).run c = .ok row c') ↔
        c.pos + layout.rowSize kind.table ≤ c.data.size ∧
        ∀ x ∈ layout.stored c.data kind.table.columns c.pos, Column.Admits x.1 x.2) ∧
      (∀ row c', (kind.read layout rid).run c = .ok row c' →
        c' = ⟨c.data, c.pos + layout.rowSize kind.table⟩ ∧
        ∃ cells, List.Forall₂ (fun x y => Column.cell? x.1 x.2 = some y)
            (layout.stored c.data kind.table.columns c.pos) cells ∧
          row = kind.ofCells rid cells) ∧
      ∀ e c', (kind.read layout rid).run c = .error e c' → e = .outOfBounds := by
  refine ⟨⟨?_, ?_⟩, ?_, fun e c' => run_read_eq_error⟩
  · rintro ⟨row, c', h⟩
    obtain ⟨hroom, ⟨cells, hcells, -⟩, -⟩ := run_read_eq_ok_iff.mp h
    exact ⟨hroom, exists_forall₂_cell?_iff.mp ⟨cells, hcells⟩⟩
  · rintro ⟨hroom, hadmits⟩
    obtain ⟨cells, hcells⟩ := exists_forall₂_cell?_iff.mpr hadmits
    exact ⟨_, _, run_read_eq_ok_iff.mpr ⟨hroom, ⟨cells, hcells, rfl⟩, rfl⟩⟩
  · intro row c' h
    obtain ⟨-, hrow, hc'⟩ := run_read_eq_ok_iff.mp h
    exact ⟨hc', hrow⟩

end TypeInventory
