import TypeInventory.Module.Loading
import TypeInventory.Proofs.Checked.Heaps
import TypeInventory.Proofs.Metadata.CodedWidths

set_option relaxedAutoImplicit false
set_option autoImplicit false

/-!
# Opening a module, checked

A module is opened from the streams that its root declares. The head of the tables is read from
parts of their stream, and the bits of coded indices are summed up in eight bits. Since a stream has
less than `2 ^ 32` bytes and a row takes at least two of them, a table of an opened module has less
than `2 ^ 31` rows. Whatever is done later with row numbers stays within 32 bits for this reason.

## Main definitions

* `TableStream.checkedOfBytes` — the tables from parts of their stream.
* `OpenModule.checkedOfMetadata` — an opened module from parts of the metadata.

## Main results

* `TableStream.checkedOfBytes_eq`, `OpenModule.checkedOfMetadata_eq` — opening a module leaves no
  range.
* `OpenModule.rowCount_lt` — how many rows a table of an opened module may have.
-/

namespace TypeInventory

open Checked

/-! ## Bits of coded indices -/

namespace Layout

/-- The bits of the largest row number that a coded index may hold. -/
def widestBits (layout : Layout) (kind : CodedKind) : ℕ :=
  (kind.tables.map fun t => rowBits (layout.rowCount t)).foldl max 0

/-- The bits of a coded index, summed up in eight bits. -/
def checkedCodedBits (layout : Layout) (kind : CodedKind) : Option ℕ :=
  add 8 (layout.widestBits kind) kind.tagBits

/-- The layout of a stream of tables, with the bits of all coded indices. -/
def checkedOfStream (data : ByteArray) (valid : ℕ) : ExceptT Fault Option Layout := do
  let layout ← plain (ofStream data valid)
  let _ ← (CodedKind.all.mapM layout.checkedCodedBits : Option (List ℕ))
  return layout

/-- The numbers of rows that fit in 32 bits take at most 32 bits. -/
lemma rowBits_le {rows : ℕ} (h : rows < 2 ^ 32) : rowBits rows ≤ 32 := by
  by_cases hzero : rows = 0
  · rw [rowBits, if_pos hzero]
    omega
  · have hlog : rows.log2 < 32 := (Nat.log2_lt hzero).mpr h
    rw [rowBits, if_neg hzero]
    omega

/-- The bits of a coded index are far from eight bits as a number. -/
lemma checkedCodedBits_eq {layout : Layout} (h : ∀ t, layout.rowCount t < 2 ^ 32)
    (kind : CodedKind) : layout.checkedCodedBits kind = some (layout.codedBits kind) := by
  have hwidest : layout.widestBits kind ≤ 32 := by
    refine foldl_max_le_iff.mpr ⟨Nat.zero_le _, List.forall_mem_map.mpr fun t _ => ?_⟩
    exact rowBits_le (h t)
  have htag := kind.tagBits_bounds
  exact add_of_lt (by omega)

/-- A row count is a number of four bytes. -/
lemma rowCount_declaredLayout_lt (data : ByteArray) (t : TableId) :
    (TableStream.declaredLayout data).rowCount t < 2 ^ 32 := by
  change TableStream.declaredRows data t < 2 ^ 32
  unfold TableStream.declaredRows
  split_ifs
  · exact numberAt_lt _ _ 4
  · decide

/-- A layout that is read has the declared row counts, which are numbers of 32 bits. -/
lemma rowCount_lt_of_ofStream {data : ByteArray} {layout : Layout} (hsize : 24 ≤ data.size)
    (h : ofStream data (TableStream.declaredMask data) = .ok layout) (t : TableId) :
    layout.rowCount t < 2 ^ 32 := by
  by_cases hsupported : TableStream.declaredMask data >>> TableId.count = 0
  · by_cases hcounts : 24 + 4 * popcount (TableStream.declaredMask data) ≤ data.size
    · rw [TableStream.ofStream_of_le hsupported hcounts] at h
      cases h
      exact rowCount_declaredLayout_lt data t
    · rw [TableStream.ofStream_of_lt hsize hsupported (Nat.not_le.mp hcounts)] at h
      cases h
  · rw [ofStream, if_neg hsupported] at h
    cases h

/-- Reading the layout of a stream leaves no range. -/
lemma checkedOfStream_eq {data : ByteArray} (hsize : 24 ≤ data.size) :
    checkedOfStream data (TableStream.declaredMask data) =
      plain (ofStream data (TableStream.declaredMask data)) := by
  unfold checkedOfStream
  cases hlayout : ofStream data (TableStream.declaredMask data) with
  | error e => rfl
  | ok layout =>
    have hbits : CodedKind.all.mapM layout.checkedCodedBits =
        some (CodedKind.all.map layout.codedBits) := by
      rw [funext (checkedCodedBits_eq (rowCount_lt_of_ofStream hsize hlayout))]
      exact List.mapM_pure
    rw [plain_ok_bind, hbits]
    rfl

end Layout

/-! ## Tables -/

namespace TableStream

/-- The tables in a stream. -/
def checkedOfBytes (data : ByteArray) : ExceptT Fault Option TableStream := do
  if data.size < headSize then
    throw .outOfBounds
  else
    let behindFlags ← part data 8 data.size
    let valid ← word behindFlags 0 8
    if valid = 0 then
      throw (.malformed .noTables)
    else
      let layout ← Layout.checkedOfStream data valid
      let flags ← byteAt data 6
      let extra := if flags.toNat.testBit extraDataBit then 4 else 0
      let starts ← plain
        (locate layout data.size TableId.all (headSize + 4 * maskSize valid + extra))
      let major ← byteAt data 4
      let minor ← byteAt data 5
      let behindMask ← part data 16 data.size
      let sorted ← word behindMask 0 8
      return { data, major := major.toNat, minor := minor.toNat, valid, sorted, layout, starts }

/-- **Reading the head of the tables takes no part of the stream that is not there**, and the sums
of bits stay within eight bits.

**Proof sketch.** All parts lie within the 24 bytes that are asked for at first. Row counts have 32
bits, so that a row number has at most 32, and the tag of a coded index at most five. -/
lemma checkedOfBytes_eq (data : ByteArray) : checkedOfBytes data = plain (ofBytes data) := by
  unfold checkedOfBytes
  by_cases hshort : data.size < headSize
  · rw [if_pos hshort, ofBytes_of_lt hshort]
    rfl
  · have hsize : 24 ≤ data.size := Nat.not_lt.mp hshort
    rw [if_neg hshort, part_of_le (by omega) (Nat.le_refl _), some_bind,
      word_extract_of_le (by omega), plain_ok_bind, ← declaredMask]
    by_cases hmask : declaredMask data = 0
    · rw [if_pos hmask, ofBytes_of_no_mask hsize hmask]
      rfl
    · have hflags : data[6].toNat = declaredFlags data := (numberAt_one (by omega)).symm
      have hmajor : data[4].toNat = numberAt data 4 1 := (numberAt_one (by omega)).symm
      have hminor : data[5].toNat = numberAt data 5 1 := (numberAt_one (by omega)).symm
      rw [if_neg hmask, ofBytes_of_mask hsize hmask, Layout.checkedOfStream_eq hsize]
      refine plain_bind fun layout _ => ?_
      rw [byteAt_of_lt (show 6 < data.size by omega), some_bind, hflags]
      refine plain_bind fun starts _ => ?_
      rw [byteAt_of_lt (show 4 < data.size by omega), some_bind, hmajor,
        byteAt_of_lt (show 5 < data.size by omega), some_bind, hminor,
        part_of_le (by omega) (Nat.le_refl _), some_bind, word_extract_of_le (by omega),
        plain_ok_bind]
      rfl

end TableStream

/-! ## Modules -/

namespace OpenModule

/-- The module with the given metadata, opened from parts of them. -/
def checkedOfMetadata (metadata : ByteArray) : ExceptT Fault Option OpenModule := do
  let root ← MetadataRoot.checkedOfBytes metadata
  let compressed? ← root.checkedStream? metadata "#~"
  let plain? ← root.checkedStream? metadata "#-"
  match compressed? <|> plain? with
  | none => throw (.malformed .noTablesStream)
  | some tables =>
    let names? ← root.checkedStream? metadata "#Strings"
    let strings ← plain (StringHeap.ofBytes (names?.getD emptyHeap))
    let signatures? ← root.checkedStream? metadata "#Blob"
    let blobs ← plain (BlobHeap.ofBytes (signatures?.getD emptyHeap))
    let tables ← TableStream.checkedOfBytes tables
    return { root, strings, blobs, tables }

/-- **Opening a module leaves no range**: every part that is taken is there, and every sum fits. -/
lemma checkedOfMetadata_eq (metadata : ByteArray) :
    checkedOfMetadata metadata = plain (ofMetadata metadata) := by
  unfold checkedOfMetadata ofMetadata
  rw [MetadataRoot.checkedOfBytes_eq]
  refine plain_bind fun root hroot => ?_
  simp only [MetadataRoot.checkedStream?_eq hroot, some_bind]
  cases root.stream? metadata "#~" <|> root.stream? metadata "#-" with
  | none => rfl
  | some tables =>
    refine plain_bind fun strings _ => ?_
    refine plain_bind fun blobs _ => ?_
    rw [TableStream.checkedOfBytes_eq]
    exact plain_bind fun tables _ => rfl

section Rows

variable {metadata : ByteArray} {m : OpenModule}

/-- One result after another is there when the first is and the second is with it. -/
lemma exists_of_bind_eq_ok {α β : Type} {x : Except Fault α} {f : α → Except Fault β} {b : β}
    (h : x >>= f = .ok b) : ∃ a, x = .ok a ∧ f a = .ok b := by
  cases x with
  | error e => cases h
  | ok a => exact ⟨a, rfl, h⟩

/-- The tables of an opened module are those of a stream of less than `2 ^ 32` bytes. -/
lemma exists_tables (h : ofMetadata metadata = .ok m) :
    ∃ stream : ByteArray, stream.size < 2 ^ 32 ∧ TableStream.ofBytes stream = .ok m.tables := by
  unfold ofMetadata at h
  obtain ⟨root, hroot, h⟩ := exists_of_bind_eq_ok h
  cases hstream : root.stream? metadata "#~" <|> root.stream? metadata "#-" with
  | none =>
    simp only [hstream] at h
    cases h
  | some stream =>
    have hsize : stream.size < 2 ^ 32 := by
      cases hnamed : root.stream? metadata "#~" with
      | none =>
        rw [hnamed] at hstream
        exact MetadataRoot.size_stream_lt hroot hstream
      | some other =>
        rw [hnamed] at hstream
        cases hstream
        exact MetadataRoot.size_stream_lt hroot hnamed
    simp only [hstream] at h
    obtain ⟨strings, -, h⟩ := exists_of_bind_eq_ok h
    obtain ⟨blobs, -, h⟩ := exists_of_bind_eq_ok h
    obtain ⟨tables, htables, h⟩ := exists_of_bind_eq_ok h
    cases h
    exact ⟨stream, hsize, htables⟩

/-- A column takes two or four bytes. -/
lemma columnWidth_bounds (layout : Layout) (column : Column) :
    2 ≤ layout.columnWidth column ∧ layout.columnWidth column ≤ 4 := by
  have hwidth : ∀ wide, 2 ≤ Layout.width wide ∧ Layout.width wide ≤ 4 := by decide
  cases column with
  | word16 => simp [Layout.columnWidth]
  | word32 => simp [Layout.columnWidth]
  | string => exact hwidth _
  | guid => exact hwidth _
  | blob => exact hwidth _
  | row t => exact hwidth _
  | coded kind => exact hwidth _

/-- A row takes at least two bytes, and at most 36. -/
lemma rowSize_bounds (layout : Layout) (t : TableId) :
    2 ≤ layout.rowSize t ∧ layout.rowSize t ≤ 36 := by
  have hwidths : ∀ columns : List Column,
      2 * columns.length ≤ layout.columnsWidth columns ∧
        layout.columnsWidth columns ≤ 4 * columns.length := by
    intro columns
    induction columns with
    | nil => exact ⟨Nat.le_refl 0, Nat.le_refl 0⟩
    | cons column columns ih =>
      have hcolumn := columnWidth_bounds layout column
      simp only [Layout.columnsWidth, List.map_cons, List.sum_cons, List.length_cons] at ih ⊢
      omega
  have hcolumns : 1 ≤ t.columns.length ∧ t.columns.length ≤ 9 := by
    cases t <;> decide
  have htotal := hwidths t.columns
  rw [Layout.rowSize_eq_columnsWidth]
  omega

/-- **A table of an opened module has less than `2 ^ 31` rows.**

**Proof sketch.** The rows of a table lie within their stream (`TableStream.geometry`), which has
less than `2 ^ 32` bytes, and each of them takes at least two. -/
lemma rowCount_lt (h : ofMetadata metadata = .ok m) (t : TableId) :
    m.tables.layout.rowCount t < 2 ^ 31 := by
  obtain ⟨stream, hsize, htables⟩ := exists_tables h
  obtain ⟨-, -, starts, hlocate, heq⟩ := TableStream.ofBytes_eq_ok_iff.mp htables
  rw [heq]
  change (TableStream.declaredLayout stream).rowCount t < 2 ^ 31
  rcases Nat.eq_zero_or_pos ((TableStream.declaredLayout stream).rowCount t) with hzero | hrows
  · omega
  · have hadjacent := TableStream.adjacent_of_locate hlocate
    obtain ⟨p, hp, rfl⟩ := hadjacent.exists_mem hrows
    have hinside := hadjacent.inside p hp
    have hwidth := (rowSize_bounds (TableStream.declaredLayout stream) p.1).1
    have hbytes := Nat.mul_le_mul_left ((TableStream.declaredLayout stream).rowCount p.1) hwidth
    rw [Layout.tableSize] at hinside
    omega

end Rows

end OpenModule

end TypeInventory
