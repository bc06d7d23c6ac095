import TypeInventory.Proofs.Metadata.Geometry
import TypeInventory.Proofs.Written.Root

set_option relaxedAutoImplicit false
set_option autoImplicit false

/-!
# Written streams of tables

A stream of tables is written as its head, the row counts of the tables that are present, and the
rows of all tables in the order of the tables. Whatever the rows are, as long as they are as wide
as the row counts and the flags make them, each of them is then found at its number.

## Main definitions

* `TableSource`, `TableSource.bytes` — rows of tables, and the stream that is written from them.
* `TableSource.Fits` — rows that have the widths that they make.
* `TableStream.Holds` — a stream with the rows of a source.

## Main results

* `TableSource.exists_ofBytes_eq_ok` — a written stream is accepted and holds its rows.
* `TableStream.Holds.get?_eq_some` — a row is read back at its number.
-/

namespace TypeInventory

/-! ## Writing -/

/-- Rows of tables that are to be written. -/
structure TableSource where
  /-- The flags that tell which heaps are large. -/
  flags : ℕ
  /-- The mask of tables that are present, with rows or without. -/
  mask : ℕ
  /-- The bytes of the rows of each table. -/
  rows : TableId → List (List UInt8)

namespace TableSource

/-- The row counts of the tables that are present. -/
def countBytes (source : TableSource) (tables : List TableId) : List UInt8 :=
  (tables.filter fun t => source.mask.testBit t.number).flatMap fun t =>
    littleEndianBytes 4 (source.rows t).length

/-- The rows of some tables. -/
def rowBytes (source : TableSource) (tables : List TableId) : List UInt8 :=
  tables.flatMap fun t => (source.rows t).flatten

/-- The stream: version 2.0, the flags, both masks, the row counts and the rows. No table is marked
as sorted. -/
def bytes (source : TableSource) : List UInt8 :=
  littleEndianBytes 4 0 ++ (littleEndianBytes 1 2 ++ (littleEndianBytes 1 0 ++
    (littleEndianBytes 1 source.flags ++ (littleEndianBytes 1 1 ++
      (littleEndianBytes 8 source.mask ++ (littleEndianBytes 8 0 ++
        (source.countBytes TableId.all ++ source.rowBytes TableId.all)))))))

/-- The layout that the rows and the flags make. -/
def layout (source : TableSource) : Layout where
  rowCount := fun t => (source.rows t).length
  wideStrings := source.flags.testBit 0
  wideGuids := source.flags.testBit 1
  wideBlobs := source.flags.testBit 2

/-- Rows that can be written: their tables are known and present, and they are as wide as the layout
makes them. The flags announce no extra data. -/
structure Fits (source : TableSource) : Prop where
  flags_lt : source.flags < 2 ^ 6
  mask_ne : source.mask ≠ 0
  known : source.mask >>> TableId.count = 0
  present : ∀ t, source.rows t ≠ [] → source.mask.testBit t.number = true
  count_lt : ∀ t, (source.rows t).length < 2 ^ 32
  width : ∀ t, ∀ row ∈ source.rows t, row.length = source.layout.rowSize t

variable {source : TableSource}

lemma countBytes_append (source : TableSource) (front back : List TableId) :
    source.countBytes (front ++ back) = source.countBytes front ++ source.countBytes back := by
  rw [countBytes, List.filter_append, List.flatMap_append, ← countBytes, ← countBytes]

lemma countBytes_cons {t : TableId} (h : source.mask.testBit t.number = true)
    (tables : List TableId) :
    source.countBytes (t :: tables) =
      littleEndianBytes 4 (source.rows t).length ++ source.countBytes tables := by
  rw [countBytes, List.filter_cons, if_pos h, List.flatMap_cons, ← countBytes]

lemma rowBytes_append (source : TableSource) (front back : List TableId) :
    source.rowBytes (front ++ back) = source.rowBytes front ++ source.rowBytes back :=
  List.flatMap_append

lemma rowBytes_cons (source : TableSource) (t : TableId) (tables : List TableId) :
    source.rowBytes (t :: tables) = (source.rows t).flatten ++ source.rowBytes tables :=
  List.flatMap_cons

lemma length_countBytes (source : TableSource) (tables : List TableId) :
    (source.countBytes tables).length =
      4 * tables.countP fun t => source.mask.testBit t.number := by
  rw [countBytes, List.length_flatMap]
  simp only [length_littleEndianBytes]
  rw [List.map_const', List.sum_replicate, ← List.countP_eq_length_filter, smul_eq_mul,
    Nat.mul_comm]

/-- The rows of a table take as many bytes as their number and the width of one of them say. -/
lemma length_rows_flatten (h : source.Fits) (t : TableId) :
    (source.rows t).flatten.length = source.layout.tableSize t :=
  length_flatten_of_forall (h.width t)

lemma length_rowBytes (h : source.Fits) (tables : List TableId) :
    (source.rowBytes tables).length = (tables.map source.layout.tableSize).sum := by
  rw [rowBytes, List.length_flatMap]
  simp only [length_rows_flatten h]

/-- All tables, around one of them. -/
lemma all_eq_append (t : TableId) :
    TableId.all = TableId.all.take t.number ++ t :: TableId.all.drop (t.number + 1) := by
  obtain ⟨hlt, hget⟩ := List.getElem?_eq_some_iff.mp (TableId.all_getElem?_number t)
  conv_lhs => rw [← List.take_append_drop t.number TableId.all, List.drop_eq_getElem_cons hlt, hget]

/-! ## What a written stream declares -/

section Declared

variable {data : ByteArray} {padding : List UInt8}

/-- The parts of the head of a written stream. -/
lemma drop_of_toList (hdata : data.data.toList = source.bytes ++ padding) :
    data.data.toList.drop 6 = littleEndianBytes 1 source.flags ++ data.data.toList.drop 7 ∧
    data.data.toList.drop 8 = littleEndianBytes 8 source.mask ++ data.data.toList.drop 16 ∧
    data.data.toList.drop 24 =
      source.countBytes TableId.all ++ (source.rowBytes TableId.all ++ padding) := by
  have hall : data.data.toList.drop 0 = source.bytes ++ padding := by
    rw [List.drop_zero, hdata]
  rw [bytes] at hall
  simp only [List.append_assoc] at hall
  have hmajor := drop_add_of_append hall
  have hminor := drop_add_of_append hmajor
  have hflags := drop_add_of_append hminor
  have hreserved := drop_add_of_append hflags
  have hmask := drop_add_of_append hreserved
  have hsorted := drop_add_of_append hmask
  have hcounts := drop_add_of_append hsorted
  simp only [length_littleEndianBytes, Nat.zero_add, Nat.reduceAdd]
    at hflags hreserved hmask hsorted hcounts
  rw [← hreserved] at hflags
  rw [← hsorted] at hmask
  exact ⟨hflags, hmask, hcounts⟩

/-- The parts of a written stream lie in it. -/
lemma size_eq_of_toList (hdata : data.data.toList = source.bytes ++ padding) :
    data.size = 24 + (source.countBytes TableId.all).length +
      (source.rowBytes TableId.all).length + padding.length := by
  rw [← ByteArray.size_data, ← Array.length_toList, hdata, bytes]
  simp only [List.length_append, length_littleEndianBytes]
  omega

lemma declaredFlags_eq (h : source.Fits) (hdata : data.data.toList = source.bytes ++ padding) :
    TableStream.declaredFlags data = source.flags :=
  numberAt_of_drop (drop_of_toList hdata).1 (Nat.lt_trans h.flags_lt (by decide))

lemma declaredMask_eq (h : source.Fits) (hdata : data.data.toList = source.bytes ++ padding) :
    TableStream.declaredMask data = source.mask := by
  have hlt : source.mask < 2 ^ TableId.count := by
    have hknown := h.known
    rw [Nat.shiftRight_eq_div_pow] at hknown
    exact (Nat.div_eq_zero_iff_lt (Nat.two_pow_pos _)).mp hknown
  exact numberAt_of_drop (drop_of_toList hdata).2.1 (Nat.lt_trans hlt (by decide))

/-- A row count is found behind those of the present tables with smaller numbers. -/
lemma declaredRows_eq (h : source.Fits) (hdata : data.data.toList = source.bytes ++ padding)
    (t : TableId) : TableStream.declaredRows data t = (source.rows t).length := by
  rw [TableStream.declaredRows, declaredMask_eq h hdata]
  by_cases hbit : source.mask.testBit t.number = true
  · have hcounts := (drop_of_toList hdata).2.2
    rw [all_eq_append t, countBytes_append, countBytes_cons hbit, List.append_assoc] at hcounts
    have hcount := drop_add_of_append hcounts
    have hnumbers : (TableId.all.take t.number).countP (fun t => source.mask.testBit t.number) =
        (List.range t.number).countP source.mask.testBit := by
      rw [← TableId.map_number_take, List.countP_map]
      rfl
    rw [length_countBytes, hnumbers, List.append_assoc] at hcount
    rw [if_pos hbit]
    exact numberAt_of_drop hcount (h.count_lt t)
  · rw [if_neg hbit]
    by_contra hrows
    exact hbit (h.present t (List.ne_nil_of_length_pos (Nat.pos_of_ne_zero (Ne.symm hrows))))

lemma declaredLayout_eq (h : source.Fits) (hdata : data.data.toList = source.bytes ++ padding) :
    TableStream.declaredLayout data = source.layout := by
  rw [TableStream.declaredLayout, declaredFlags_eq h hdata, funext (declaredRows_eq h hdata),
    layout]

/-- The rows lie behind the row counts. -/
lemma declaredStart_eq (h : source.Fits) (hdata : data.data.toList = source.bytes ++ padding) :
    TableStream.declaredStart data = 24 + (source.countBytes TableId.all).length := by
  have hbit : source.flags.testBit 6 = false := Nat.testBit_lt_two_pow h.flags_lt
  rw [TableStream.declaredStart, declaredFlags_eq h hdata, declaredMask_eq h hdata, hbit,
    ← TableStream.maskSize_eq_popcount h.known, length_countBytes]
  rfl

/-- The rows of a table lie behind those of the tables with smaller numbers. -/
lemma drop_rows (h : source.Fits) (hdata : data.data.toList = source.bytes ++ padding)
    (t : TableId) :
    ∃ suffix, data.data.toList.drop (TableStream.declaredStart data +
        ((TableId.all.take t.number).map source.layout.tableSize).sum) =
      (source.rows t).flatten ++ suffix := by
  have hrows := drop_add_of_append (drop_of_toList hdata).2.2
  rw [← declaredStart_eq h hdata, all_eq_append t, rowBytes_append, rowBytes_cons,
    List.append_assoc, List.append_assoc] at hrows
  have hrows' := drop_add_of_append hrows
  rw [length_rowBytes h] at hrows'
  exact ⟨_, hrows'⟩

/-- The rows of no table run past the end. -/
lemma not_tablesRunPast (h : source.Fits) (hdata : data.data.toList = source.bytes ++ padding) :
    ¬TableStream.TablesRunPast source.layout data.size TableId.all
      (TableStream.declaredStart data) := by
  rintro ⟨i, t, ht, hrows, hpast⟩
  obtain rfl := TableId.all_getElem?_eq_some_iff.mp ht
  have hrowBytes : (source.rowBytes TableId.all).length =
      ((TableId.all.take t.number).map source.layout.tableSize).sum +
        (source.layout.tableSize t +
          ((TableId.all.drop (t.number + 1)).map source.layout.tableSize).sum) := by
    conv_lhs => rw [all_eq_append t, length_rowBytes h, List.map_append, List.map_cons,
      List.sum_append, List.sum_cons]
  have hsize := size_eq_of_toList hdata
  have hstart := declaredStart_eq h hdata
  omega

end Declared

end TableSource

/-! ## What a written stream holds -/

namespace TableStream

/-- A table with rows is located behind those in front of it. -/
lemma lookup_of_locate {layout : Layout} {size : ℕ} {tables : List TableId}
    (hnodup : tables.Nodup) {t : TableId} (hrows : 0 < layout.rowCount t) :
    ∀ first starts i, locate layout size tables first = .ok starts → tables[i]? = some t →
      starts.lookup t = some (first + ((tables.take i).map layout.tableSize).sum) := by
  induction tables with
  | nil =>
    intro first starts i _ ht
    cases ht
  | cons u tables ih =>
    intro first starts i h ht
    obtain ⟨hnotMem, hnodup⟩ := List.nodup_cons.mp hnodup
    rcases Nat.eq_zero_or_pos (layout.rowCount u) with hempty | hpos
    · rw [locate_cons_of_empty hempty] at h
      cases i with
      | zero =>
        cases ht
        exact absurd hempty (Nat.ne_of_gt hrows)
      | succ i =>
        rw [ih hnodup first starts i h ht, List.take_succ_cons, List.map_cons, List.sum_cons,
          Layout.tableSize, hempty, Nat.zero_mul, Nat.zero_add]
    · by_cases hpast : size < first + layout.tableSize u
      · rw [locate_cons_of_past hpos hpast] at h
        cases h
      · rw [locate_cons_of_fits hpos (Nat.not_lt.mp hpast)] at h
        cases hrest : locate layout size tables (first + layout.tableSize u) with
        | error e =>
          rw [hrest] at h
          cases h
        | ok rest =>
          rw [hrest] at h
          cases h
          cases i with
          | zero =>
            cases ht
            rw [List.lookup_cons_self]
            rfl
          | succ i =>
            have hmem : t ∈ tables := List.mem_of_getElem? ht
            have hne : (t == u) = false := by
              rw [beq_eq_false_iff_ne]
              rintro rfl
              exact hnotMem hmem
            rw [List.lookup_cons, hne, ih hnodup _ rest i hrest ht, List.take_succ_cons,
              List.map_cons, List.sum_cons, Nat.add_assoc]

/-- A stream holds the rows of a source: it has as many of each table, as wide as its layout says,
and they lie one behind the other where the table starts. -/
structure Holds (s : TableStream) (source : TableSource) : Prop where
  layout_eq : s.layout = source.layout
  width : ∀ t, ∀ row ∈ source.rows t, row.length = source.layout.rowSize t
  rows : ∀ t, source.rows t ≠ [] → ∃ suffix,
    s.data.data.toList.drop ((s.starts.lookup t).getD 0) = (source.rows t).flatten ++ suffix

/-- There are as many rows as were written. -/
lemma Holds.rowCount_eq {s : TableStream} {source : TableSource} (h : s.Holds source)
    (kind : RowKind) : (s.table kind.Row).rowCount = (source.rows kind.table).length := by
  change s.layout.rowCount kind.table = _
  rw [h.layout_eq]
  rfl

/-- **A row is read back at its number.** -/
lemma Holds.get?_eq_some {s : TableStream} {source : TableSource} (h : s.Holds source)
    (kind : RowKind) {i : ℕ} {bytes : List UInt8} {row : kind.Row}
    (hbytes : (source.rows kind.table)[i]? = some bytes)
    (hread : (kind.read source.layout (i + 1)).Reads bytes row) :
    (s.table kind.Row).get? (i + 1) = some row := by
  obtain ⟨hlt, -⟩ := List.getElem?_eq_some_iff.mp hbytes
  have hne : source.rows kind.table ≠ [] := List.ne_nil_of_length_pos (Nat.zero_lt_of_lt hlt)
  obtain ⟨suffix, hrows⟩ := h.rows kind.table hne
  rw [flatten_eq_append hbytes, List.append_assoc, List.append_assoc] at hrows
  have hrow := drop_add_of_append hrows
  have hfront : ((source.rows kind.table).take i).flatten.length =
      i * source.layout.rowSize kind.table := by
    rw [length_flatten_of_forall fun row hmem => h.width kind.table row (List.mem_of_mem_take hmem),
      List.length_take_of_le (Nat.le_of_lt hlt)]
  rw [hfront] at hrow
  have hplace : (s.table kind.Row).place (i + 1) =
      (s.starts.lookup kind.table).getD 0 + i * source.layout.rowSize kind.table := by
    rw [Table.place, Table.rowSize_eq, Nat.add_sub_cancel, ← h.layout_eq]
    rfl
  have hinside : ¬(i + 1 = 0 ∨ (s.table kind.Row).rowCount < i + 1) := by
    have hcount := h.rowCount_eq kind
    omega
  have hlayout : (s.table kind.Row).layout = source.layout := h.layout_eq
  have hrun := hread ⟨(s.table kind.Row).data, (s.table kind.Row).place (i + 1)⟩ _
    (by rw [hplace]; exact hrow)
  rw [Table.get?_eq_of_inside hinside, hlayout, hrun]

/-- The rows of a table are those that were written, and there are no others. -/
lemma Holds.get?_mapIdx {s : TableStream} {source : TableSource} (h : s.Holds source)
    (kind : RowKind) {α : Type} {owners : List α} {bytes : ℕ → α → List UInt8}
    {row : ℕ → α → kind.Row} (hbytes : source.rows kind.table = owners.mapIdx bytes)
    (hread : ∀ i a, owners[i]? = some a →
      (kind.read source.layout (i + 1)).Reads (bytes i a) (row i a)) (i : ℕ) :
    (s.table kind.Row).get? (i + 1) = owners[i]?.map (row i) := by
  cases ha : owners[i]? with
  | none =>
    have hcount := h.rowCount_eq kind
    rw [hbytes, List.length_mapIdx] at hcount
    have hlength := List.getElem?_eq_none_iff.mp ha
    exact Table.get?_eq_none_of_outside (.inr (by omega))
  | some a =>
    refine h.get?_eq_some kind ?_ (hread i a ha)
    rw [hbytes, List.getElem?_mapIdx, ha]
    rfl

/-- A table for which nothing was written has no rows. -/
lemma Holds.rows_eq_nil {s : TableStream} {source : TableSource} (h : s.Holds source)
    (kind : RowKind) (hempty : source.rows kind.table = []) : (s.table kind.Row).rows = [] := by
  have hcount := h.rowCount_eq kind
  rw [hempty] at hcount
  rw [Table.rows, hcount]
  rfl

end TableStream

/-- **A written stream is accepted and holds its rows.** -/
lemma TableSource.exists_ofBytes_eq_ok {source : TableSource} (h : source.Fits) {data : ByteArray}
    {padding : List UInt8} (hdata : data.data.toList = source.bytes ++ padding) :
    ∃ s, TableStream.ofBytes data = .ok s ∧ s.Holds source := by
  have hnodup : TableId.all.Nodup := by decide
  have hsize := size_eq_of_toList hdata
  have hcounts : (source.countBytes TableId.all).length = 4 * popcount source.mask := by
    rw [length_countBytes, ← TableStream.maskSize_eq_popcount h.known]
    rfl
  have hfits := not_tablesRunPast h hdata
  obtain ⟨starts, hlocate⟩ : ∃ starts, TableStream.locate source.layout data.size TableId.all
      (TableStream.declaredStart data) = .ok starts := by
    cases hlocate : TableStream.locate source.layout data.size TableId.all
        (TableStream.declaredStart data) with
    | ok starts => exact ⟨starts, rfl⟩
    | error e => exact absurd (TableStream.locate_eq_error_iff.mp hlocate).2 hfits
  refine ⟨TableStream.declared data starts, ?_, declaredLayout_eq h hdata, h.width, ?_⟩
  · refine TableStream.ofBytes_eq_ok_iff.mpr ⟨⟨by omega, ?_, ?_⟩, ?_, starts, ?_, rfl⟩
    · rw [declaredMask_eq h hdata]
      exact h.mask_ne
    · rw [declaredMask_eq h hdata]
      exact h.known
    · rw [declaredMask_eq h hdata]
      omega
    · rw [declaredLayout_eq h hdata]
      exact hlocate
  · intro t hne
    obtain ⟨suffix, hsuffix⟩ := drop_rows h hdata t
    have hlookup := TableStream.lookup_of_locate hnodup (List.length_pos_iff.mpr hne) _ starts
      t.number hlocate (TableId.all_getElem?_number t)
    refine ⟨suffix, ?_⟩
    change data.data.toList.drop ((starts.lookup t).getD 0) = _
    rw [hlookup, Option.getD_some, hsuffix]

end TypeInventory
