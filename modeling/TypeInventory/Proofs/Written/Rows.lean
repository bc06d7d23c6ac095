import TypeInventory.Proofs.Checked.Opening
import TypeInventory.Proofs.Written.Declarations
import TypeInventory.Proofs.Written.Tables

set_option relaxedAutoImplicit false
set_option autoImplicit false

/-!
# Written rows

A row is written cell by cell, each as a number of a given width. The rows of declarations have
their widths from the heaps and from the numbers of declarations. These are the widths that a
reader works out from the stream of tables, so that every row is read back.

## Main definitions

* `cellBytes` — a row, from the widths and the numbers of its cells.
* `Heaps` — the bytes of heaps, and how wide places in them are written.
* `ModuleDecl.tableSource` — the tables of declarations.

## Main results

* `RowKind.reads_cellBytes` — a row is read back when its cells are as wide as its columns.
* `ModuleDecl.fits_tableSource` — the tables of declarations can be written.
-/

namespace TypeInventory

/-! ## Cells -/

/-- A row, from the widths and the numbers of its cells. -/
def cellBytes (cells : List (ℕ × ℕ)) : List UInt8 :=
  cells.flatMap fun cell => littleEndianBytes cell.1 cell.2

lemma length_cellBytes (cells : List (ℕ × ℕ)) :
    (cellBytes cells).length = (cells.map Prod.fst).sum := by
  rw [cellBytes, List.length_flatMap]
  simp only [length_littleEndianBytes]

/-- Each number fits the width of its cell. -/
def CellsFit (cells : List (ℕ × ℕ)) : Prop :=
  ∀ cell ∈ cells, cell.2 < 2 ^ (8 * cell.1)

/-- Cells are read back by the columns that they are written for.

**Proof sketch.** By induction on the columns, each of which takes the bytes of one cell. -/
lemma Reader.reads_cells {layout : Layout} {columns : List Column} :
    ∀ {cells : List (ℕ × ℕ)} {values : List Cell},
      cells.map Prod.fst = columns.map layout.columnWidth → CellsFit cells →
      List.Forall₂ (fun x y => Column.cell? x.1 x.2 = some y) (columns.zip (cells.map Prod.snd))
        values →
      (columns.mapM (cell layout)).Reads (cellBytes cells) values := by
  induction columns with
  | nil =>
    intro cells values hwidths _ hvalues
    rw [List.map_nil, List.map_eq_nil_iff] at hwidths
    subst hwidths
    cases hvalues
    exact reads_pure []
  | cons column columns ih =>
    intro cells values hwidths hfit hvalues
    cases cells with
    | nil => cases hwidths
    | cons c cells =>
      rw [List.map_cons, List.map_cons, List.cons.injEq] at hwidths
      obtain ⟨hwidth, hwidths⟩ := hwidths
      rw [List.map_cons, List.zip_cons_cons] at hvalues
      cases hvalues with
      | @cons _ value _ values hvalue hvalues =>
        have hpos : 0 < layout.columnWidth column :=
          Nat.lt_of_lt_of_le Nat.two_pos (OpenModule.columnWidth_bounds layout column).1
        have hlt := hfit c List.mem_cons_self
        rw [hwidth] at hlt
        have hcell : (cell layout column).Reads (littleEndianBytes c.1 c.2) value := by
          rw [hwidth, ← List.append_nil (littleEndianBytes _ _)]
          refine reads_bind (reads_word hpos hlt) ?_
          simp only at hvalue
          simp only [hvalue]
          exact reads_pure value
        have htail := ih hwidths (fun d hd => hfit d (List.mem_cons_of_mem c hd)) hvalues
        rw [List.mapM_cons, cellBytes, List.flatMap_cons, ← cellBytes]
        refine reads_bind hcell ?_
        rw [← List.append_nil (cellBytes cells)]
        exact reads_bind htail (reads_pure _)

/-- **A row is read back** when its cells are as wide as its columns. -/
lemma RowKind.reads_cellBytes {kind : RowKind} {layout : Layout} {rid : ℕ} {cells : List (ℕ × ℕ)}
    {values : List Cell} (hwidths : cells.map Prod.fst = kind.table.columns.map layout.columnWidth)
    (hfit : CellsFit cells)
    (hvalues : List.Forall₂ (fun x y => Column.cell? x.1 x.2 = some y)
      (kind.table.columns.zip (cells.map Prod.snd)) values) :
    (kind.read layout rid).Reads (cellBytes cells) (kind.ofCells rid values) := by
  rw [read_eq_ofCells, map_eq_pure_bind, ← List.append_nil (cellBytes cells)]
  exact Reader.reads_bind (Reader.reads_cells hwidths hfit hvalues) (Reader.reads_pure _)

/-! ## Widths -/

namespace Layout

variable (layout : Layout)

/-- The width of row numbers is the one for 16 bits. -/
lemma rowIndexWidth_eq_indexWidth (t : TableId) :
    layout.rowIndexWidth t = indexWidth 16 (layout.rowCount t) := by
  simp only [rowIndexWidth, width, indexWidth, decide_eq_true_iff,
    lt_rowBits_iff (show 0 < 16 by decide), ← Nat.not_lt, ite_not]

/-- Without references and constructed types, the width of a base is the one for 14 bits: two more
select the table. -/
lemma codedWidth_eq_indexWidth (hrefs : layout.rowCount .typeRef = 0)
    (hspecs : layout.rowCount .typeSpec = 0) :
    layout.codedWidth .typeDefOrRef = indexWidth 14 (layout.rowCount .typeDef) := by
  have hbits : 16 - CodedKind.typeDefOrRef.tagBits = 14 := by decide
  have hsmall : (∀ t ∈ CodedKind.typeDefOrRef.tables, layout.rowCount t < 2 ^ 14) ↔
      layout.rowCount .typeDef < 2 ^ 14 := by
    simp [CodedKind.tables, hrefs, hspecs]
  simp only [codedWidth_eq_ite, hbits, hsmall, indexWidth]

end Layout

/-! ## The tables of declarations -/

/-- Heaps: their bytes, and whether places in them are written with four bytes. -/
structure Heaps where
  /-- The heap of strings. -/
  strings : List UInt8
  /-- The heap of blobs. -/
  blobs : List UInt8
  /-- Whether places of strings are wide. -/
  wideStrings : Bool
  /-- Whether places of identifiers are wide. -/
  wideGuids : Bool
  /-- Whether places of blobs are wide. -/
  wideBlobs : Bool

/-- The flags that tell which places are wide. -/
def Heaps.flags (heaps : Heaps) : ℕ :=
  heaps.wideStrings.toNat + 2 * heaps.wideGuids.toNat + 4 * heaps.wideBlobs.toNat

/-- The mask that names some tables. -/
def tableMask (tables : List TableId) : ℕ :=
  tables.foldl (fun mask t => mask ||| 1 <<< t.number) 0

namespace Heaps

variable (heaps : Heaps)

/-- The cells of the row of a module: no generation and no identifiers. -/
def moduleCells (row : ModuleRow) : List (ℕ × ℕ) :=
  [(2, row.generation), (Layout.width heaps.wideStrings, row.name),
    (Layout.width heaps.wideGuids, row.mvid), (Layout.width heaps.wideGuids, 0),
    (Layout.width heaps.wideGuids, 0)]

/-- The cells of the row of a type without a base. -/
def typeDefCells (M : ModuleDecl) (row : TypeDefRow) : List (ℕ × ℕ) :=
  [(4, row.flags), (Layout.width heaps.wideStrings, row.typeName),
    (Layout.width heaps.wideStrings, row.typeNamespace), (indexWidth 14 M.types.length, 0),
    (indexWidth 16 M.fields.length, row.fieldList),
    (indexWidth 16 M.methods.length, row.methodList)]

/-- The cells of the row of a field. -/
def fieldCells (row : FieldRow) : List (ℕ × ℕ) :=
  [(2, row.flags), (Layout.width heaps.wideStrings, row.name),
    (Layout.width heaps.wideBlobs, row.signature)]

/-- The cells of the row of a method. -/
def methodCells (M : ModuleDecl) (row : MethodDefRow) : List (ℕ × ℕ) :=
  [(4, row.rva), (2, row.implFlags), (2, row.flags),
    (Layout.width heaps.wideStrings, row.name), (Layout.width heaps.wideBlobs, row.signature),
    (indexWidth 16 M.params.length, row.paramList)]

/-- The cells of the row of a parameter. -/
def paramCells (row : ParamRow) : List (ℕ × ℕ) :=
  [(2, row.flags), (2, row.sequence), (Layout.width heaps.wideStrings, row.name)]

end Heaps

/-- The tables that declarations are stored in. -/
def storedTables : List TableId :=
  [.module, .typeDef, .field, .methodDef, .param]

/-- The tables of a module. All of them are present, with rows or without. -/
def ModuleDecl.tableSource (M : ModuleDecl) (places : Placement) (heaps : Heaps) : TableSource where
  flags := heaps.flags
  mask := tableMask storedTables
  rows
    | .module => [cellBytes (heaps.moduleCells places.moduleRow)]
    | .typeDef => M.types.mapIdx fun i t =>
      cellBytes (heaps.typeDefCells M (places.typeDefRow M t i))
    | .field => M.fields.mapIdx fun i f => cellBytes (heaps.fieldCells (places.fieldRow f i))
    | .methodDef => M.methods.mapIdx fun i d =>
      cellBytes (heaps.methodCells M (places.methodRow M d i))
    | .param => M.params.mapIdx fun i p => cellBytes (heaps.paramCells (places.paramRow p i))
    | _ => []

namespace Heaps

/-- A string is found at a place, and the place fits its column. -/
structure HasString (heaps : Heaps) (place : ℕ) (s : String) : Prop where
  fits : place < 2 ^ (8 * Layout.width heaps.wideStrings)
  entry : ∃ suffix, heaps.strings.drop place = stringEntry s ++ suffix

/-- A blob is found at a place, and the place fits its column. -/
structure HasBlob (heaps : Heaps) (place : ℕ) (blob : List UInt8) : Prop where
  fits : place < 2 ^ (8 * Layout.width heaps.wideBlobs)
  length_lt : blob.length < 2 ^ 29
  entry : ∃ suffix, heaps.blobs.drop place = blobEntry blob ++ suffix

end Heaps

/-- The heaps have the names and the signatures of all declarations at their places, each signature
in one of its written forms. -/
structure ModuleDecl.PlacedIn (M : ModuleDecl) (places : Placement) (heaps : Heaps) : Prop where
  strings_head : heaps.strings.head? = some 0
  blobs_head : heaps.blobs.head? = some 0
  moduleName : heaps.HasString places.moduleName M.name
  typeName : ∀ i t, M.types[i]? = some t → heaps.HasString (places.typeName i) t.name
  typeNamespace : ∀ i t, M.types[i]? = some t →
    heaps.HasString (places.typeNamespace i) t.typeNamespace
  fieldName : ∀ i f, M.fields[i]? = some f → heaps.HasString (places.fieldName i) f.name
  fieldSignature : ∀ i f, M.fields[i]? = some f → ∃ bytes, f.type.signature.Written bytes ∧
    heaps.HasBlob (places.fieldSignature i) (fieldMark :: bytes)
  methodName : ∀ i d, M.methods[i]? = some d → heaps.HasString (places.methodName i) d.name
  methodSignature : ∀ i d, M.methods[i]? = some d → ∃ bytes, d.signature.Written bytes ∧
    heaps.HasBlob (places.methodSignature i) bytes
  paramName : ∀ i p, M.params[i]? = some p → heaps.HasString (places.paramName i) p.1.name

/-! ### Wide places -/

/-- The same heaps with all places written with four bytes, however large the heaps are. -/
def Heaps.widened (heaps : Heaps) : Heaps where
  strings := heaps.strings
  blobs := heaps.blobs
  wideStrings := true
  wideGuids := true
  wideBlobs := true

/-- A place that fits a narrow or a wide column fits a wide one. -/
lemma Layout.lt_of_lt_width {place : ℕ} {wide : Bool} (h : place < 2 ^ (8 * width wide)) :
    place < 2 ^ (8 * width true) := by
  have hle : ∀ wide, 2 ^ (8 * width wide) ≤ 2 ^ (8 * width true) := by decide
  exact Nat.lt_of_lt_of_le h (hle wide)

lemma Heaps.HasString.widened {heaps : Heaps} {place : ℕ} {s : String}
    (h : heaps.HasString place s) : heaps.widened.HasString place s :=
  ⟨Layout.lt_of_lt_width h.fits, h.entry⟩

lemma Heaps.HasBlob.widened {heaps : Heaps} {place : ℕ} {blob : List UInt8}
    (h : heaps.HasBlob place blob) : heaps.widened.HasBlob place blob :=
  ⟨Layout.lt_of_lt_width h.fits, h.length_lt, h.entry⟩

/-- Names and signatures lie where they lie, however wide their places are written. -/
lemma ModuleDecl.PlacedIn.widened {M : ModuleDecl} {places : Placement} {heaps : Heaps}
    (h : M.PlacedIn places heaps) : M.PlacedIn places heaps.widened where
  strings_head := h.strings_head
  blobs_head := h.blobs_head
  moduleName := h.moduleName.widened
  typeName i t ht := (h.typeName i t ht).widened
  typeNamespace i t ht := (h.typeNamespace i t ht).widened
  fieldName i f hf := (h.fieldName i f hf).widened
  fieldSignature i f hf := (h.fieldSignature i f hf).imp fun _ hbytes =>
    ⟨hbytes.1, hbytes.2.widened⟩
  methodName i d hd := (h.methodName i d hd).widened
  methodSignature i d hd := (h.methodSignature i d hd).imp fun _ hbytes =>
    ⟨hbytes.1, hbytes.2.widened⟩
  paramName i p hp := (h.paramName i p hp).widened

namespace ModuleDecl

variable {M : ModuleDecl} {places : Placement} {heaps : Heaps}

/-! ## Widths of the tables of declarations -/

/-- The widths of columns, by the heaps and by the numbers of declarations. -/
lemma columnWidth_tableSource (M : ModuleDecl) (places : Placement) (heaps : Heaps) :
    (M.tableSource places heaps).layout.columnWidth .string = Layout.width heaps.wideStrings ∧
    (M.tableSource places heaps).layout.columnWidth .guid = Layout.width heaps.wideGuids ∧
    (M.tableSource places heaps).layout.columnWidth .blob = Layout.width heaps.wideBlobs ∧
    (M.tableSource places heaps).layout.columnWidth (.row .field) =
      indexWidth 16 M.fields.length ∧
    (M.tableSource places heaps).layout.columnWidth (.row .methodDef) =
      indexWidth 16 M.methods.length ∧
    (M.tableSource places heaps).layout.columnWidth (.row .param) =
      indexWidth 16 M.params.length ∧
    (M.tableSource places heaps).layout.columnWidth (.coded .typeDefOrRef) =
      indexWidth 14 M.types.length := by
  have hbits : ∀ a b c : Bool, (a.toNat + 2 * b.toNat + 4 * c.toNat).testBit 0 = a ∧
      (a.toNat + 2 * b.toNat + 4 * c.toNat).testBit 1 = b ∧
      (a.toNat + 2 * b.toNat + 4 * c.toNat).testBit 2 = c := by
    decide
  obtain ⟨hstrings, hguids, hblobs⟩ := hbits heaps.wideStrings heaps.wideGuids heaps.wideBlobs
  have hrow : ∀ t n, (M.tableSource places heaps).layout.rowCount t = n →
      (M.tableSource places heaps).layout.columnWidth (.row t) = indexWidth 16 n := by
    rintro t n rfl
    exact Layout.rowIndexWidth_eq_indexWidth _ t
  have hcoded : (M.tableSource places heaps).layout.columnWidth (.coded .typeDefOrRef) =
      indexWidth 14 M.types.length := by
    refine (Layout.codedWidth_eq_indexWidth _ rfl rfl).trans ?_
    exact congrArg (indexWidth 14) List.length_mapIdx
  exact ⟨congrArg Layout.width hstrings, congrArg Layout.width hguids,
    congrArg Layout.width hblobs, hrow _ _ List.length_mapIdx, hrow _ _ List.length_mapIdx,
    hrow _ _ List.length_mapIdx, hcoded⟩

/-- The cells of rows are as wide as their columns. -/
structure CellsAgree (M : ModuleDecl) (heaps : Heaps) (layout : Layout) : Prop where
  module : ∀ row, (heaps.moduleCells row).map Prod.fst =
    TableId.module.columns.map layout.columnWidth
  typeDef : ∀ row, (heaps.typeDefCells M row).map Prod.fst =
    TableId.typeDef.columns.map layout.columnWidth
  field : ∀ row, (heaps.fieldCells row).map Prod.fst = TableId.field.columns.map layout.columnWidth
  method : ∀ row, (heaps.methodCells M row).map Prod.fst =
    TableId.methodDef.columns.map layout.columnWidth
  param : ∀ row, (heaps.paramCells row).map Prod.fst = TableId.param.columns.map layout.columnWidth

/-- In the layout that the tables make, they are. -/
lemma cellsAgree_tableSource (M : ModuleDecl) (places : Placement) (heaps : Heaps) :
    M.CellsAgree heaps (M.tableSource places heaps).layout := by
  obtain ⟨hstrings, hguids, hblobs, hfields, hmethods, hparams, htypes⟩ :=
    columnWidth_tableSource M places heaps
  have hword : (M.tableSource places heaps).layout.columnWidth .word16 = 2 := rfl
  have hdouble : (M.tableSource places heaps).layout.columnWidth .word32 = 4 := rfl
  constructor <;> intro row <;>
    simp only [TableId.columns, List.map_cons, List.map_nil, hstrings, hguids, hblobs, hfields,
      hmethods, hparams, htypes, hword, hdouble] <;>
    rfl

/-! ## Reading the tables of declarations -/

/-- The row of the module is read back. -/
lemma reads_module (h : M.PlacedIn places heaps) :
    (RowKind.module.read (M.tableSource places heaps).layout 1).Reads
      (cellBytes (heaps.moduleCells places.moduleRow)) places.moduleRow := by
  have hwidths := (M.cellsAgree_tableSource places heaps).module places.moduleRow
  have hfit : CellsFit (heaps.moduleCells places.moduleRow) := by
    simp only [CellsFit, Heaps.moduleCells, List.forall_mem_cons, Placement.moduleRow]
    exact ⟨Nat.two_pow_pos _, h.moduleName.fits, Nat.two_pow_pos _, Nat.two_pow_pos _,
      Nat.two_pow_pos _, fun _ hc => nomatch hc⟩
  have hvalues : List.Forall₂ (fun x y => Column.cell? x.1 x.2 = some y)
      (RowKind.module.table.columns.zip ((heaps.moduleCells places.moduleRow).map Prod.snd))
      [.number 0, .number places.moduleName, .number 0, .number 0, .number 0] :=
    .cons rfl (.cons rfl (.cons rfl (.cons rfl (.cons rfl .nil))))
  exact RowKind.reads_cellBytes hwidths hfit hvalues

/-- The row of a type is read back. -/
lemma reads_typeDef (h : M.PlacedIn places heaps) (hM : M.Fits) {i : ℕ} {t : TypeDecl}
    (ht : M.types[i]? = some t) :
    (RowKind.typeDef.read (M.tableSource places heaps).layout (i + 1)).Reads
      (cellBytes (heaps.typeDefCells M (places.typeDefRow M t i))) (places.typeDefRow M t i) := by
  have hlt := (List.getElem?_eq_some_iff.mp ht).1
  have hwidths := (M.cellsAgree_tableSource places heaps).typeDef (places.typeDefRow M t i)
  have hfit : CellsFit (heaps.typeDefCells M (places.typeDefRow M t i)) := by
    simp only [CellsFit, Heaps.typeDefCells, List.forall_mem_cons, Placement.typeDefRow]
    exact ⟨t.flags.toNat_lt, (h.typeName i t ht).fits, (h.typeNamespace i t ht).fits,
      Nat.two_pow_pos _, hM.fieldStart i hlt, hM.methodStart i hlt, fun _ hc => nomatch hc⟩
  have hbase : Column.cell? (.coded .typeDefOrRef) 0 = some (.index ⟨.typeDef, 0⟩) := by decide
  have hvalues : List.Forall₂ (fun x y => Column.cell? x.1 x.2 = some y)
      (RowKind.typeDef.table.columns.zip
        ((heaps.typeDefCells M (places.typeDefRow M t i)).map Prod.snd))
      [.number t.flags.toNat, .number (places.typeName i), .number (places.typeNamespace i),
        .index ⟨.typeDef, 0⟩, .number (M.fieldStart i), .number (M.methodStart i)] :=
    .cons rfl (.cons rfl (.cons rfl (.cons hbase (.cons rfl (.cons rfl .nil)))))
  exact RowKind.reads_cellBytes hwidths hfit hvalues

/-- The row of a field is read back. -/
lemma reads_field (h : M.PlacedIn places heaps) {i : ℕ} {f : FieldDecl}
    (hf : M.fields[i]? = some f) :
    (RowKind.field.read (M.tableSource places heaps).layout (i + 1)).Reads
      (cellBytes (heaps.fieldCells (places.fieldRow f i))) (places.fieldRow f i) := by
  have hwidths := (M.cellsAgree_tableSource places heaps).field (places.fieldRow f i)
  obtain ⟨bytes, -, hblob⟩ := h.fieldSignature i f hf
  have hfit : CellsFit (heaps.fieldCells (places.fieldRow f i)) := by
    simp only [CellsFit, Heaps.fieldCells, List.forall_mem_cons, Placement.fieldRow]
    exact ⟨f.flags.toNat_lt, (h.fieldName i f hf).fits, hblob.fits, fun _ hc => nomatch hc⟩
  have hvalues : List.Forall₂ (fun x y => Column.cell? x.1 x.2 = some y)
      (RowKind.field.table.columns.zip ((heaps.fieldCells (places.fieldRow f i)).map Prod.snd))
      [.number f.flags.toNat, .number (places.fieldName i), .number (places.fieldSignature i)] :=
    .cons rfl (.cons rfl (.cons rfl .nil))
  exact RowKind.reads_cellBytes hwidths hfit hvalues

/-- The row of a method is read back. -/
lemma reads_method (h : M.PlacedIn places heaps) (hM : M.Fits) {i : ℕ} {d : MethodDecl}
    (hd : M.methods[i]? = some d) :
    (RowKind.methodDef.read (M.tableSource places heaps).layout (i + 1)).Reads
      (cellBytes (heaps.methodCells M (places.methodRow M d i))) (places.methodRow M d i) := by
  have hlt := (List.getElem?_eq_some_iff.mp hd).1
  have hwidths := (M.cellsAgree_tableSource places heaps).method (places.methodRow M d i)
  obtain ⟨bytes, -, hblob⟩ := h.methodSignature i d hd
  have hfit : CellsFit (heaps.methodCells M (places.methodRow M d i)) := by
    simp only [CellsFit, Heaps.methodCells, List.forall_mem_cons, Placement.methodRow]
    exact ⟨Nat.two_pow_pos _, Nat.two_pow_pos _, d.flags.toNat_lt, (h.methodName i d hd).fits,
      hblob.fits, hM.paramStart i hlt, fun _ hc => nomatch hc⟩
  have hvalues : List.Forall₂ (fun x y => Column.cell? x.1 x.2 = some y)
      (RowKind.methodDef.table.columns.zip
        ((heaps.methodCells M (places.methodRow M d i)).map Prod.snd))
      [.number 0, .number 0, .number d.flags.toNat, .number (places.methodName i),
        .number (places.methodSignature i), .number (M.paramStart i)] :=
    .cons rfl (.cons rfl (.cons rfl (.cons rfl (.cons rfl (.cons rfl .nil)))))
  exact RowKind.reads_cellBytes hwidths hfit hvalues

/-- The row of a parameter is read back. -/
lemma reads_param (h : M.PlacedIn places heaps) (hM : M.Fits) {i : ℕ} {p : ParamDecl × ℕ}
    (hp : M.params[i]? = some p) :
    (RowKind.param.read (M.tableSource places heaps).layout (i + 1)).Reads
      (cellBytes (heaps.paramCells (places.paramRow p i))) (places.paramRow p i) := by
  have hposition := (hM.param (List.mem_of_getElem? hp)).2
  have hwidths := (M.cellsAgree_tableSource places heaps).param (places.paramRow p i)
  have hfit : CellsFit (heaps.paramCells (places.paramRow p i)) := by
    simp only [CellsFit, Heaps.paramCells, List.forall_mem_cons, Placement.paramRow]
    exact ⟨p.1.flags.toNat_lt, hposition, (h.paramName i p hp).fits, fun _ hc => nomatch hc⟩
  have hvalues : List.Forall₂ (fun x y => Column.cell? x.1 x.2 = some y)
      (RowKind.param.table.columns.zip ((heaps.paramCells (places.paramRow p i)).map Prod.snd))
      [.number p.1.flags.toNat, .number p.2, .number (places.paramName i)] :=
    .cons rfl (.cons rfl (.cons rfl .nil))
  exact RowKind.reads_cellBytes hwidths hfit hvalues

/-- **The tables of a module can be written.**

**Proof sketch.** Only the tables that are named have rows. Their cells are as wide as their
columns. -/
lemma fits_tableSource (hM : M.Fits) (places : Placement) (heaps : Heaps) :
    (M.tableSource places heaps).Fits := by
  have hflags : ∀ a b c : Bool, a.toNat + 2 * b.toNat + 4 * c.toNat < 2 ^ 6 := by decide
  have hmask : (M.tableSource places heaps).mask = 0x155 := rfl
  have hagree := M.cellsAgree_tableSource places heaps
  have hlength : ∀ (t : TableId) (cells : List (ℕ × ℕ)),
      cells.map Prod.fst = t.columns.map (M.tableSource places heaps).layout.columnWidth →
      (cellBytes cells).length = (M.tableSource places heaps).layout.rowSize t := by
    intro t cells hwidths
    rw [length_cellBytes, hwidths, Layout.rowSize_eq_columnsWidth, Layout.columnsWidth]
  refine ⟨hflags heaps.wideStrings heaps.wideGuids heaps.wideBlobs, by rw [hmask]; decide,
    by rw [hmask]; decide, fun t hrows => ?_, fun t => ?_, fun t => ?_⟩
  · rw [hmask]
    cases t with
    | module | typeDef | field | methodDef | param => decide
    | _ => exact absurd rfl hrows
  · have hle : ∀ {n : ℕ}, n < 2 ^ 24 → n < 2 ^ 32 := fun h => Nat.lt_trans h (by decide)
    cases t with
    | module => exact Nat.one_lt_two_pow (by decide)
    | typeDef => exact List.length_mapIdx.symm ▸ hle hM.typeCount
    | field => exact List.length_mapIdx.symm ▸ hle hM.fieldCount
    | methodDef => exact List.length_mapIdx.symm ▸ hle hM.methodCount
    | param => exact List.length_mapIdx.symm ▸ hle hM.paramCount
    | _ => exact Nat.two_pow_pos 32
  · intro row hrow
    cases t with
    | module =>
      rw [List.mem_singleton.mp hrow]
      exact hlength _ _ (hagree.module _)
    | typeDef =>
      obtain ⟨i, hi, rfl⟩ := List.mem_mapIdx.mp hrow
      exact hlength _ _ (hagree.typeDef _)
    | field =>
      obtain ⟨i, hi, rfl⟩ := List.mem_mapIdx.mp hrow
      exact hlength _ _ (hagree.field _)
    | methodDef =>
      obtain ⟨i, hi, rfl⟩ := List.mem_mapIdx.mp hrow
      exact hlength _ _ (hagree.method _)
    | param =>
      obtain ⟨i, hi, rfl⟩ := List.mem_mapIdx.mp hrow
      exact hlength _ _ (hagree.param _)
    | _ => cases hrow

end ModuleDecl

end TypeInventory
