import TypeInventory.Metadata.Tables
import TypeInventory.Proofs.Metadata.Columns

set_option relaxedAutoImplicit false
set_option autoImplicit false

/-!
# Rows of a table, one by one and in order

A table gives its rows in two ways: by their number, and by a walk that hands its cursor on from row
to row. Since every row that can be read is as wide as the layout says, the walk stands in front of
row `rid` when it comes to it, and both ways give the same rows.

## Main definitions

* `Table.place` — where a row starts.
* `Walk.behind` — the walk behind the first rows of a table.

## Main results

* `Table.get?_eq_some_iff` — when a row is given, and what it holds.
* `Table.get?_eq_runOn_extract` — a row is read from its own bytes alone.
* `Table.rows_eq_takeWhile` — the rows in order are those with the numbers 1, 2, … up to the first
  that cannot be read.
* `Table.le_length_rows_iff` — how far the rows in order reach.
-/

namespace TypeInventory

namespace Table

/-- Where row `rid`, counted from one, starts. -/
def place {α : Type} [MetadataRow α] (t : Table α) (rid : ℕ) : ℕ :=
  t.start + (rid - 1) * t.rowSize

section RowsByNumber

variable {kind : RowKind} {t : Table kind.Row} {rid : ℕ}

/-- The width of a row is the one that the layout gives to the table of its kind. -/
lemma rowSize_eq : t.rowSize = t.layout.rowSize kind.table :=
  rfl

/-- There is no row with a number outside the table. -/
lemma get?_eq_none_of_outside (h : rid = 0 ∨ t.rowCount < rid) : t.get? rid = none :=
  if_pos h

/-- A row inside the table is what its kind reads at its place. -/
lemma get?_eq_of_inside (h : ¬(rid = 0 ∨ t.rowCount < rid)) :
    t.get? rid =
      match (kind.read t.layout rid).run ⟨t.data, t.place rid⟩ with
      | .ok row _ => some row
      | .error _ _ => none := by
  unfold get? RowKind.read place
  rw [if_neg h]
  cases (MetadataRow.read t.layout rid : Reader kind.Row).run
    ⟨t.data, t.start + (rid - 1) * t.rowSize⟩ <;> rfl

/-- A row is given when the table has it, its bytes are there, and each number in it may be stored.
Its fields are the cells that the numbers stand for. -/
lemma get?_eq_some_iff {row : kind.Row} :
    t.get? rid = some row ↔
      (1 ≤ rid ∧ rid ≤ t.rowCount) ∧ t.place rid + t.rowSize ≤ t.data.size ∧
      ∃ cells, List.Forall₂ (fun x y => Column.cell? x.1 x.2 = some y)
          (t.layout.stored t.data kind.table.columns (t.place rid)) cells ∧
        row = kind.ofCells rid cells := by
  by_cases houtside : rid = 0 ∨ t.rowCount < rid
  · rw [get?_eq_none_of_outside houtside]
    constructor
    · intro h
      cases h
    · rintro ⟨hinside, -⟩
      omega
  · have hinside : 1 ≤ rid ∧ rid ≤ t.rowCount := by omega
    rw [get?_eq_of_inside houtside]
    constructor
    · intro h
      split at h
      next row' c' hrun =>
        cases h
        obtain ⟨hroom, hcells, -⟩ := RowKind.run_read_eq_ok_iff.mp hrun
        exact ⟨hinside, hroom, hcells⟩
      next => cases h
    · rintro ⟨-, hroom, hcells⟩
      rw [RowKind.run_read_eq_ok_iff.mpr ⟨hroom, hcells, rfl⟩]

/-- A row inside the table whose bytes are there is missing only for a number that may not be
stored. -/
lemma get?_eq_none_iff (hinside : 1 ≤ rid ∧ rid ≤ t.rowCount)
    (hroom : t.place rid + t.rowSize ≤ t.data.size) :
    t.get? rid = none ↔
      ∃ x ∈ t.layout.stored t.data kind.table.columns (t.place rid), ¬Column.Admits x.1 x.2 := by
  constructor
  · intro hnone
    by_contra hall
    push Not at hall
    obtain ⟨cells, hcells⟩ := exists_forall₂_cell?_iff.mpr hall
    have hsome := get?_eq_some_iff.mpr ⟨hinside, hroom, cells, hcells, rfl⟩
    rw [hnone] at hsome
    cases hsome
  · rintro ⟨x, hx, hbad⟩
    cases hget : t.get? rid with
    | none => rfl
    | some row =>
      obtain ⟨-, -, cells, hcells, -⟩ := get?_eq_some_iff.mp hget
      exact absurd (exists_forall₂_cell?_iff.mp ⟨cells, hcells⟩ x hx) hbad

/-- A row inside the table is read from its own bytes: reading the part of the data in which they
lie, on its own and from its start, gives the same.

**Proof sketch.** Both readings succeed under the same condition on the same stored numbers
(`Layout.stored_extract`), and give the row whose fields are their cells. -/
lemma get?_eq_runOn_extract (hinside : 1 ≤ rid ∧ rid ≤ t.rowCount)
    (hroom : t.place rid + t.rowSize ≤ t.data.size) :
    t.get? rid =
      ((kind.read t.layout rid).runOn
        (t.data.extract (t.place rid) (t.place rid + t.rowSize))).toOption := by
  have hsize : (t.data.extract (t.place rid) (t.place rid + t.rowSize)).size = t.rowSize := by
    rw [ByteArray.size_extract]
    omega
  have hstored : t.layout.stored (t.data.extract (t.place rid) (t.place rid + t.rowSize))
        kind.table.columns 0 =
      t.layout.stored t.data kind.table.columns (t.place rid) := by
    refine Layout.stored_extract _ ?_
    rw [rowSize_eq, Layout.rowSize_eq_columnsWidth]
    omega
  generalize hpart : t.data.extract (t.place rid) (t.place rid + t.rowSize) = part at *
  unfold Reader.runOn
  cases hrun : (kind.read t.layout rid).run (Cursor.ofBytes part) with
  | ok row c' =>
    obtain ⟨-, ⟨cells, hcells, hrow⟩, -⟩ := RowKind.run_read_eq_ok_iff.mp hrun
    rw [Cursor.ofBytes, hstored] at hcells
    exact get?_eq_some_iff.mpr ⟨hinside, hroom, cells, hcells, hrow⟩
  | error e c' =>
    rw [Except.toOption, Option.eq_none_iff_forall_ne_some]
    intro row hget
    obtain ⟨-, -, cells, hcells, -⟩ := get?_eq_some_iff.mp hget
    rw [← hstored] at hcells
    have hfits : 0 + t.layout.rowSize kind.table ≤ part.size := by
      rw [hsize, rowSize_eq]
      omega
    have hok : (kind.read t.layout rid).run (Cursor.ofBytes part) =
        .ok (kind.ofCells rid cells) ⟨part, 0 + t.layout.rowSize kind.table⟩ :=
      RowKind.run_read_eq_ok_iff.mpr ⟨hfits, ⟨cells, hcells, rfl⟩, rfl⟩
    rw [hrun] at hok
    cases hok

end RowsByNumber

end Table

/-! ## Walking through the rows -/

namespace Walk

/-- The walk behind the first `n` rows of a table. -/
def behind {α : Type} [MetadataRow α] (t : Table α) (n : ℕ) : Walk α :=
  ⟨t, n, ⟨t.data, t.start + n * t.rowSize⟩⟩

variable {kind : RowKind} {t : Table kind.Row}

/-- A step of the walk behind `n` rows, when the table has more, reads row `n + 1`. -/
lemma next_behind_of_lt {n : ℕ} (hn : n < t.rowCount) :
    (behind t n).next =
      match (kind.read t.layout (n + 1)).run ⟨t.data, t.start + n * t.rowSize⟩ with
      | .ok row c => (some row, ⟨t, n + 1, c⟩)
      | .error _ c => (none, ⟨t, n, c⟩) := by
  unfold next behind RowKind.read
  rw [if_pos hn]
  cases (MetadataRow.read t.layout (n + 1) : Reader kind.Row).run
    ⟨t.data, t.start + n * t.rowSize⟩ <;> rfl

/-- A step of the walk behind `n` rows gives row `n + 1`. -/
lemma next_behind_fst (t : Table kind.Row) (n : ℕ) : (behind t n).next.1 = t.get? (n + 1) := by
  by_cases hn : n < t.rowCount
  · have hinside : ¬(n + 1 = 0 ∨ t.rowCount < n + 1) := by omega
    rw [next_behind_of_lt hn, Table.get?_eq_of_inside hinside, Table.place, Nat.add_sub_cancel]
    split <;> rfl
  · have hnot : ¬(behind t n).rowsRead < (behind t n).table.rowCount := hn
    rw [Table.get?_eq_none_of_outside (by omega)]
    unfold next
    rw [if_neg hnot]

/-- A step of the walk that gives a row leads behind this row. -/
lemma next_behind_snd {n : ℕ} {row : kind.Row} (h : t.get? (n + 1) = some row) :
    (behind t n).next.2 = behind t (n + 1) := by
  obtain ⟨hinside, hroom, hcells⟩ := Table.get?_eq_some_iff.mp h
  rw [Table.place, Nat.add_sub_cancel] at hroom hcells
  have hrun : (kind.read t.layout (n + 1)).run ⟨t.data, t.start + n * t.rowSize⟩ =
      .ok row ⟨t.data, t.start + n * t.rowSize + t.rowSize⟩ :=
    RowKind.run_read_eq_ok_iff.mpr ⟨hroom, hcells, rfl⟩
  rw [next_behind_of_lt (by omega), hrun, behind, Nat.succ_mul, Nat.add_assoc]

/-- The walk behind `n` rows gives the further rows by their numbers, up to the first that cannot be
read.

**Proof sketch.** By induction on how many rows may still come. The walk gives row `n + 1` first; if
it is there, the walk goes on behind `n + 1` rows, and else it ends. -/
lemma rowsInto_behind (done : List kind.Row) (m n : ℕ) :
    ((behind t n).rowsInto done m).map some =
      done.reverse.map some ++ ((List.range' (n + 1) m).map t.get?).takeWhile Option.isSome := by
  induction m generalizing n done with
  | zero => simp [rowsInto]
  | succ m ih =>
    have hfst := next_behind_fst t n
    rw [rowsInto, List.range'_succ, List.map_cons]
    cases hget : t.get? (n + 1) with
    | none =>
      rw [hget] at hfst
      rw [List.takeWhile_cons_of_neg (by simp), List.append_nil]
      split
      next row w' heq => simp [heq] at hfst
      next => rfl
    | some row =>
      rw [hget] at hfst
      rw [List.takeWhile_cons_of_pos rfl]
      have hsnd := next_behind_snd hget
      split
      next row' w' heq =>
        rw [heq] at hfst hsnd
        cases hfst
        rw [show w' = behind t (n + 1) from hsnd, ih]
        simp
      next heq => simp [heq] at hfst

end Walk

/-- The rows in order are the rows with the numbers 1, 2, … up to the first that cannot be read. -/
lemma Table.rows_eq_takeWhile {kind : RowKind} (t : Table kind.Row) :
    t.rows.map some = ((List.range' 1 t.rowCount).map t.get?).takeWhile Option.isSome := by
  have hwalk : t.walk = Walk.behind t 0 := by
    rw [Table.walk, Walk.behind, Nat.zero_mul, Nat.add_zero]
  rw [Table.rows, hwalk, Walk.rowsInto_behind]
  simp

/-- Of the rows behind the first `n`, those up to the first that cannot be read. -/
lemma Table.exists_takeWhile_eq {kind : RowKind} (t : Table kind.Row) (m n : ℕ) :
    ∃ k ≤ m, ((List.range' (n + 1) m).map t.get?).takeWhile Option.isSome =
        (List.range' (n + 1) k).map t.get? ∧
      (k < m → t.get? (n + k + 1) = none) := by
  induction m generalizing n with
  | zero => exact ⟨0, Nat.le_refl 0, rfl, fun h => absurd h (Nat.lt_irrefl 0)⟩
  | succ m ih =>
    rw [List.range'_succ, List.map_cons]
    cases hget : t.get? (n + 1) with
    | none =>
      refine ⟨0, Nat.zero_le _, ?_, fun _ => hget⟩
      rw [List.takeWhile_cons_of_neg (by simp)]
      rfl
    | some row =>
      obtain ⟨k, hk, hrows, hnext⟩ := ih (n + 1)
      refine ⟨k + 1, Nat.succ_le_succ hk, ?_, ?_⟩
      · rw [List.takeWhile_cons_of_pos rfl, hrows, List.range'_succ, List.map_cons, hget]
      · intro hlt
        rw [show n + (k + 1) + 1 = n + 1 + k + 1 by omega]
        exact hnext (by omega)

namespace Table

section RowsInOrder

variable {kind : RowKind} (t : Table kind.Row)

/-- The rows in order are the first rows of the table, and the row behind them, if there is one,
cannot be read. -/
lemma rows_eq_first :
    t.rows.length ≤ t.rowCount ∧
      t.rows.map some = (List.range' 1 t.rows.length).map t.get? ∧
      (t.rows.length < t.rowCount → t.get? (t.rows.length + 1) = none) := by
  obtain ⟨k, hk, hrows, hnext⟩ := t.exists_takeWhile_eq t.rowCount 0
  rw [Nat.zero_add] at hrows hnext
  rw [← t.rows_eq_takeWhile] at hrows
  have hlength : t.rows.length = k := by
    simpa using congrArg List.length hrows
  rw [hlength]
  exact ⟨hk, hrows, hnext⟩

/-- The row at a place in their order is that with the next number. -/
lemma get?_succ_of_lt_length {i : ℕ} (h : i < t.rows.length) :
    t.get? (i + 1) = some t.rows[i] := by
  obtain ⟨-, hrows, -⟩ := t.rows_eq_first
  have hplace := congrArg (·[i]?) hrows
  simpa [h, Nat.add_comm 1 i] using hplace.symm

/-- The rows in order reach up to a row exactly when all rows up to it can be read. -/
lemma le_length_rows_iff {rid : ℕ} (hcount : rid ≤ t.rowCount) :
    rid ≤ t.rows.length ↔ ∀ j, 1 ≤ j → j ≤ rid → (t.get? j).isSome := by
  constructor
  · intro hle j hone hj
    obtain ⟨i, rfl⟩ : ∃ i, j = i + 1 := ⟨j - 1, by omega⟩
    rw [t.get?_succ_of_lt_length (by omega)]
    rfl
  · intro hall
    by_contra hlt
    obtain ⟨-, -, hnext⟩ := t.rows_eq_first
    have hsome := hall (t.rows.length + 1) (by omega) (by omega)
    rw [hnext (by omega)] at hsome
    cases hsome

variable {t}

/-- If all rows can be read, the rows in order are all of them. -/
lemma length_rows_eq (h : ∀ rid, 1 ≤ rid → rid ≤ t.rowCount → (t.get? rid).isSome) :
    t.rows.length = t.rowCount :=
  Nat.le_antisymm t.rows_eq_first.1 ((t.le_length_rows_iff (Nat.le_refl _)).mpr h)

/-- If all rows can be read, the rows in order are those that are given for some number. -/
lemma mem_rows_iff (h : ∀ rid, 1 ≤ rid → rid ≤ t.rowCount → (t.get? rid).isSome)
    {row : kind.Row} : row ∈ t.rows ↔ ∃ rid, t.get? rid = some row := by
  constructor
  · intro hmem
    obtain ⟨i, hi, rfl⟩ := List.getElem_of_mem hmem
    exact ⟨i + 1, t.get?_succ_of_lt_length hi⟩
  · rintro ⟨rid, hrow⟩
    obtain ⟨⟨hone, hle⟩, -⟩ := get?_eq_some_iff.mp hrow
    obtain ⟨i, rfl⟩ : ∃ i, rid = i + 1 := ⟨rid - 1, by omega⟩
    have hi : i < t.rows.length := by
      rw [length_rows_eq h]
      omega
    rw [t.get?_succ_of_lt_length hi] at hrow
    exact Option.some.inj hrow ▸ List.getElem_mem hi

end RowsInOrder

end Table

end TypeInventory
