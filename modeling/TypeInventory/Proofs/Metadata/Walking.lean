import TypeInventory.Proofs.Metadata.Access

set_option relaxedAutoImplicit false
set_option autoImplicit false

/-!
# Every call of a walk

A walk through the rows of a table may be asked for the next row any number of times, also after it
has given nothing. It keeps the place of the next row instead of computing it from the number of
rows, and an unreadable row leaves this place within the row. Up to the first call that gives
nothing, the walk gives the rows by their numbers; from then on it tries again from place to place,
and gives what it finds there as if it were the next row.

## Main definitions

* `Walk.after`, `Table.call`, `Table.yielded` — the walk after some calls, what one more call gives,
  and the rows of all calls so far.
* `RowKind.rid` — the number that a row carries.
* `Layout.stopFrom` — where reading columns stops.
* `Table.HoldsRowAt`, `Table.retry` — whether a row can be read at a place, and the places at which
  a walk tries again.
* `Table.IteratesFaithfully` — the walk gives the rows by their numbers and then nothing for good.

## Main results

* `RowKind.cursor_of_run_read_eq_error` — where the cursor stands behind an unreadable row.
* `Walk.exists_after_eq` — the rows of all calls have the numbers 1, 2, … without a gap.
* `Table.call_of_le_length` — the calls up to the first one that gives nothing.
* `Table.call_add_length_eq_none_iff` — the calls behind it.
* `Table.walk_calls` — when a walk is faithful.
* `Table.row_behind_unreadable_row` — a walk that gives a row after it has given nothing.
-/

namespace TypeInventory

/-! ## Where reading stops -/

/-- Where the cursor stands when columns have been read from `start` on as far as that goes: in
front of the first number whose bytes are not there, behind the first one that may not be stored, or
behind all columns. -/
def Layout.stopFrom (layout : Layout) (data : ByteArray) : List Column → ℕ → ℕ
  | [], start => start
  | column :: columns, start =>
    if start + layout.columnWidth column ≤ data.size then
      if (column.cell? (numberAt data start (layout.columnWidth column))).isSome then
        layout.stopFrom data columns (start + layout.columnWidth column)
      else
        start + layout.columnWidth column
    else
      start

/-- Reading never stops before its start. -/
lemma Layout.le_stopFrom (layout : Layout) (data : ByteArray) (columns : List Column)
    (start : ℕ) : start ≤ layout.stopFrom data columns start := by
  induction columns generalizing start with
  | nil => exact Nat.le_refl start
  | cons column columns ih =>
    have hnext := ih (start + layout.columnWidth column)
    unfold stopFrom
    split_ifs <;> omega

namespace Reader

variable {layout : Layout}

/-- A cell whose bytes are there is passed over, whether its number may be stored or not. -/
lemma run_cell (column : Column) (c : Cursor) :
    (cell layout column).run c =
      if c.pos + layout.columnWidth column ≤ c.data.size then
        match column.cell? (numberAt c.data c.pos (layout.columnWidth column)) with
        | some x => .ok x ⟨c.data, c.pos + layout.columnWidth column⟩
        | none => .error .outOfBounds ⟨c.data, c.pos + layout.columnWidth column⟩
      else
        .error .outOfBounds c := by
  rw [cell, EStateM.run_bind]
  split_ifs with hroom
  · rw [run_word_of_le hroom]
    simp only
    cases column.cell? (numberAt c.data c.pos (layout.columnWidth column)) <;> rfl
  · rw [run_word_of_lt (Nat.not_le.mp hroom)]

/-- Cells that cannot be read leave the cursor where reading stopped.

**Proof sketch.** By induction over the columns: the first cell fails, in front of its bytes or
behind them, or it is read and the others fail behind it. -/
lemma cursor_of_run_cells_eq_error {columns : List Column} {c c' : Cursor} {e : Fault}
    (h : (columns.mapM (cell layout)).run c = .error e c') :
    c' = ⟨c.data, layout.stopFrom c.data columns c.pos⟩ := by
  induction columns generalizing c with
  | nil => cases h
  | cons column columns ih =>
    rw [List.mapM_cons, EStateM.run_bind, run_cell] at h
    rw [Layout.stopFrom]
    split_ifs at h ⊢ with hroom hcell
    · obtain ⟨x, hx⟩ := Option.isSome_iff_exists.mp hcell
      rw [hx] at h
      rcases run_bind_eq_error h with hxs | ⟨xs, c₂, -, hpure⟩
      · exact ih hxs
      · cases hpure
    · rw [Option.not_isSome_iff_eq_none.mp hcell] at h
      cases h
      rfl
    · cases h
      rfl

end Reader

/-! ## Rows with their numbers -/

namespace RowKind

/-- The number that a row carries. -/
def rid : (kind : RowKind) → kind.Row → ℕ
  | module, row => ModuleRow.rid row
  | typeRef, row => TypeRefRow.rid row
  | typeDef, row => TypeDefRow.rid row
  | fieldPtr, row => FieldPtrRow.rid row
  | field, row => FieldRow.rid row
  | methodPtr, row => MethodPtrRow.rid row
  | methodDef, row => MethodDefRow.rid row
  | paramPtr, row => ParamPtrRow.rid row
  | param, row => ParamRow.rid row
  | memberRef, row => MemberRefRow.rid row
  | customAttribute, row => CustomAttributeRow.rid row
  | typeSpec, row => TypeSpecRow.rid row
  | assembly, row => AssemblyRow.rid row
  | assemblyRef, row => AssemblyRefRow.rid row
  | nestedClass, row => NestedClassRow.rid row
  | genericParam, row => GenericParamRow.rid row

/-- A row carries the number that it was read with. -/
lemma rid_ofCells (kind : RowKind) (rid : ℕ) (cells : List Cell) :
    kind.rid (kind.ofCells rid cells) = rid := by
  cases kind <;> rfl

/-- An unreadable row leaves the cursor where reading its columns stopped. -/
lemma cursor_of_run_read_eq_error {kind : RowKind} {layout : Layout} {rid : ℕ} {c c' : Cursor}
    {e : Fault} (h : (kind.read layout rid).run c = .error e c') :
    c' = ⟨c.data, layout.stopFrom c.data kind.table.columns c.pos⟩ := by
  rw [read_eq_ofCells, map_eq_pure_bind] at h
  rcases run_bind_eq_error h with hcells | ⟨cells, c₁, -, hpure⟩
  · exact Reader.cursor_of_run_cells_eq_error hcells
  · cases hpure

end RowKind

/-! ## Calls -/

section Calls

variable {kind : RowKind} (t : Table kind.Row)

/-- The walk after `n` calls. -/
def Walk.after (n : ℕ) : Walk kind.Row :=
  (fun w => w.next.2)^[n] t.walk

namespace Table

/-- What the call behind the first `n` calls gives. -/
def call (n : ℕ) : Option kind.Row :=
  (Walk.after t n).next.1

/-- The rows that the first `n` calls give. -/
def yielded (n : ℕ) : List kind.Row :=
  (List.range n).filterMap t.call

/-- Whether a row can be read at a place: its bytes are there, and each number may be stored. -/
def HoldsRowAt (place : ℕ) : Prop :=
  place + t.rowSize ≤ t.data.size ∧
    ∀ x ∈ t.layout.stored t.data kind.table.columns place, Column.Admits x.1 x.2

/-- The place at which a walk tries again, `n` calls after the first one that gave nothing: reading
goes on where it stopped. -/
def retry (n : ℕ) : ℕ :=
  (t.layout.stopFrom t.data kind.table.columns)^[n] (t.place (t.rows.length + 1))

/-- The walk gives the rows by their numbers: these are 1, 2, … without a gap, each row is the one
that the table gives for its number, and once a call has given nothing no later one gives a row. -/
structure IteratesFaithfully : Prop where
  rids : ∀ n, (t.yielded n).map kind.rid = List.range' 1 (t.yielded n).length
  rows : ∀ n, ∀ row ∈ t.yielded n, t.get? (kind.rid row) = some row
  ended : ∀ m n, m ≤ n → t.call m = none → t.call n = none

end Table

end Calls

/-! ## One call -/

namespace Walk

variable {kind : RowKind} {t : Table kind.Row}

/-- The walk that has read `n` rows and stands at a place. -/
def standing (t : Table kind.Row) (n place : ℕ) : Walk kind.Row :=
  ⟨t, n, ⟨t.data, place⟩⟩

/-- Behind the last row a call gives nothing and changes nothing. -/
lemma next_standing_of_le {n place : ℕ} (h : t.rowCount ≤ n) :
    (standing t n place).next = (none, standing t n place) :=
  if_neg (Nat.not_lt.mpr h)

/-- Where a row can be read, a call gives it with the next number and moves behind it. -/
lemma next_standing_of_holds {n place : ℕ} (hn : n < t.rowCount) (h : t.HoldsRowAt place) :
    ∃ row, kind.rid row = n + 1 ∧
      (standing t n place).next = (some row, standing t (n + 1) (place + t.rowSize)) := by
  obtain ⟨hroom, hadmits⟩ := h
  obtain ⟨cells, hcells⟩ := exists_forall₂_cell?_iff.mpr hadmits
  have hrun : (MetadataRow.read t.layout (n + 1) : Reader kind.Row).run ⟨t.data, place⟩ =
      .ok (kind.ofCells (n + 1) cells) ⟨t.data, place + t.rowSize⟩ :=
    RowKind.run_read_eq_ok_iff.mpr ⟨hroom, ⟨cells, hcells, rfl⟩, rfl⟩
  refine ⟨_, kind.rid_ofCells (n + 1) cells, ?_⟩
  unfold next standing
  rw [if_pos hn, hrun]

/-- Where no row can be read, a call gives nothing and moves to where reading stopped. -/
lemma next_standing_of_not_holds {n place : ℕ} (hn : n < t.rowCount) (h : ¬t.HoldsRowAt place) :
    (standing t n place).next =
      (none, standing t n (t.layout.stopFrom t.data kind.table.columns place)) := by
  unfold next standing
  rw [if_pos hn]
  cases hrun : (MetadataRow.read t.layout (n + 1) : Reader kind.Row).run ⟨t.data, place⟩ with
  | ok row c' =>
    obtain ⟨hroom, ⟨cells, hcells, -⟩, -⟩ := RowKind.run_read_eq_ok_iff.mp hrun
    exact absurd ⟨hroom, exists_forall₂_cell?_iff.mp ⟨cells, hcells⟩⟩ h
  | error e c' =>
    have hread : (kind.read t.layout (n + 1)).run ⟨t.data, place⟩ = .error e c' := hrun
    rw [RowKind.cursor_of_run_read_eq_error hread]

/-- A row is given by its number exactly when it can be read at its place. -/
lemma isSome_get?_succ_iff {n : ℕ} (hn : n < t.rowCount) :
    (t.get? (n + 1)).isSome ↔ t.HoldsRowAt (t.place (n + 1)) := by
  rw [Option.isSome_iff_exists, Table.HoldsRowAt, ← exists_forall₂_cell?_iff]
  simp only [Table.get?_eq_some_iff]
  constructor
  · rintro ⟨row, -, hroom, cells, hcells, -⟩
    exact ⟨hroom, cells, hcells⟩
  · rintro ⟨hroom, cells, hcells⟩
    exact ⟨_, by omega, hroom, cells, hcells, rfl⟩

/-! ## All calls -/

lemma after_succ (n : ℕ) : after t (n + 1) = (after t n).next.2 :=
  Function.iterate_succ_apply' _ _ _

lemma yielded_succ (n : ℕ) : t.yielded (n + 1) = t.yielded n ++ (t.call n).toList := by
  unfold Table.yielded
  rw [List.range_succ, List.filterMap_append]
  cases h : t.call n <;> simp [h]

/-- **The rows of all calls** have the numbers 1, 2, … without a gap, and the walk counts them.

**Proof sketch.** By induction on the calls. A call that gives a row gives it with the number behind
that of the rows so far; any other call leaves the count. -/
lemma exists_after_eq (t : Table kind.Row) (n : ℕ) :
    (∃ place, after t n = standing t (t.yielded n).length place) ∧
      (t.yielded n).map kind.rid = List.range' 1 (t.yielded n).length := by
  induction n with
  | zero => exact ⟨⟨t.start, rfl⟩, rfl⟩
  | succ n ih =>
    obtain ⟨⟨place, hafter⟩, hrids⟩ := ih
    rw [after_succ, yielded_succ, Table.call, hafter]
    by_cases hcount : t.rowCount ≤ (t.yielded n).length
    · rw [next_standing_of_le hcount]
      simp only [Option.toList_none, List.append_nil]
      exact ⟨⟨place, rfl⟩, hrids⟩
    by_cases hholds : t.HoldsRowAt place
    · obtain ⟨row, hrow, hnext⟩ := next_standing_of_holds (Nat.not_le.mp hcount) hholds
      rw [hnext]
      simp only [Option.toList_some, List.length_append, List.length_singleton, List.map_append,
        List.map_singleton, List.range'_concat, hrids, hrow, Nat.one_mul, Nat.add_comm 1]
      exact ⟨⟨_, rfl⟩, trivial⟩
    · rw [next_standing_of_not_holds (Nat.not_le.mp hcount) hholds]
      simp only [Option.toList_none, List.append_nil]
      exact ⟨⟨_, rfl⟩, hrids⟩

/-- As long as rows are given, the walk stands behind them. -/
lemma after_eq_behind {n : ℕ} (h : n ≤ t.rows.length) : after t n = behind t n := by
  induction n with
  | zero =>
    rw [behind, Nat.zero_mul, Nat.add_zero]
    rfl
  | succ n ih =>
    rw [after_succ, ih (by omega), next_behind_snd (t.get?_succ_of_lt_length h)]

/-- After the first call that gave nothing, the walk goes from one place to try at to the next, as
long as it finds no row there. -/
lemma after_add_length (hcount : t.rows.length < t.rowCount) {n : ℕ}
    (h : ∀ i < n, ¬t.HoldsRowAt (t.retry i)) :
    after t (t.rows.length + n) = standing t t.rows.length (t.retry n) := by
  induction n with
  | zero =>
    rw [Nat.add_zero, after_eq_behind (Nat.le_refl _), Table.retry, Function.iterate_zero_apply,
      Table.place, Nat.add_sub_cancel]
    rfl
  | succ n ih =>
    rw [← Nat.add_assoc, after_succ, ih fun i hi => h i (by omega),
      next_standing_of_not_holds hcount (h n (Nat.lt_succ_self n)), Table.retry, Table.retry,
      Function.iterate_succ_apply']

end Walk

namespace Table

variable {kind : RowKind} (t : Table kind.Row)

/-- **Up to the first call that gives nothing**, the calls give the rows by their numbers. -/
lemma call_of_le_length {n : ℕ} (h : n ≤ t.rows.length) : t.call n = t.get? (n + 1) := by
  rw [call, Walk.after_eq_behind h, Walk.next_behind_fst]

/-- The call behind the last row in order gives nothing. -/
lemma call_length_rows : t.call t.rows.length = none := by
  rw [t.call_of_le_length (Nat.le_refl _)]
  obtain ⟨hle, -, hnext⟩ := t.rows_eq_first
  by_cases hlt : t.rows.length < t.rowCount
  · exact hnext hlt
  · exact get?_eq_none_of_outside (by omega)

/-- **Behind the first call that gives nothing**, all calls give nothing exactly when the table has
no more rows, or no row can be read where the walk tries again.

**Proof sketch.** As long as no row is found, the walk stands at the places to try at, one after
another (`Walk.after_add_length`); the call at such a place gives a row exactly when the place holds
one. So the first place that holds a row is the first call that gives one. -/
lemma call_add_length_eq_none_iff :
    (∀ n, t.call (t.rows.length + n) = none) ↔
      t.rows.length = t.rowCount ∨ ∀ n, ¬t.HoldsRowAt (t.retry n) := by
  by_cases hcount : t.rows.length = t.rowCount
  · refine ⟨fun _ => .inl hcount, fun _ n => ?_⟩
    have hstay : Walk.after t (t.rows.length + n) = Walk.behind t t.rows.length := by
      induction n with
      | zero => exact Walk.after_eq_behind (Nat.le_refl _)
      | succ n ih =>
        rw [← Nat.add_assoc, Walk.after_succ, ih]
        exact congrArg Prod.snd (Walk.next_standing_of_le hcount.ge)
    rw [call, hstay]
    exact congrArg Prod.fst (Walk.next_standing_of_le hcount.ge)
  have hlt : t.rows.length < t.rowCount := Nat.lt_of_le_of_ne t.rows_eq_first.1 hcount
  constructor
  · intro hnone
    refine .inr fun n => ?_
    induction n using Nat.strong_induction_on with
    | _ n ih =>
      intro hholds
      obtain ⟨row, -, hnext⟩ := Walk.next_standing_of_holds hlt hholds
      have hcall := hnone n
      rw [call, Walk.after_add_length hlt ih, hnext] at hcall
      cases hcall
  · rintro (heq | hnever) n
    · exact absurd heq hcount
    · rw [call, Walk.after_add_length hlt fun i _ => hnever i,
        Walk.next_standing_of_not_holds hlt (hnever n)]

/-- A walk is faithful exactly when nothing comes behind the first call that gives nothing. -/
lemma iteratesFaithfully_iff :
    t.IteratesFaithfully ↔ ∀ n, t.call (t.rows.length + n) = none := by
  constructor
  · intro h n
    exact h.ended t.rows.length _ (Nat.le_add_right _ n) t.call_length_rows
  · intro hnone
    have hlater : ∀ n, t.rows.length ≤ n → t.call n = none := by
      intro n hn
      rw [← Nat.add_sub_cancel' hn]
      exact hnone _
    refine ⟨fun n => (Walk.exists_after_eq t n).2, ?_, ?_⟩
    · intro n row hrow
      obtain ⟨m, -, hcall⟩ := List.mem_filterMap.mp hrow
      have hm : m < t.rows.length := by
        by_contra hge
        rw [hlater m (Nat.not_lt.mp hge)] at hcall
        cases hcall
      rw [t.call_of_le_length hm.le] at hcall
      obtain ⟨-, -, cells, -, rfl⟩ := get?_eq_some_iff.mp hcall
      rw [kind.rid_ofCells]
      exact hcall
    · intro m n hmn hm
      refine hlater n (Nat.le_trans ?_ hmn)
      by_contra hlt
      rw [t.call_of_le_length (Nat.le_of_not_le hlt),
        t.get?_succ_of_lt_length (Nat.not_le.mp hlt)] at hm
      cases hm

/-- Where the bytes of a row are missing, they are missing wherever a walk tries again. -/
lemma not_holdsRowAt_retry (h : t.data.size < t.place (t.rows.length + 1) + t.rowSize) (n : ℕ) :
    ¬t.HoldsRowAt (t.retry n) := by
  have hle : t.place (t.rows.length + 1) ≤ t.retry n := by
    induction n with
    | zero => exact Nat.le_refl _
    | succ n ih =>
      rw [retry, Function.iterate_succ_apply']
      exact Nat.le_trans ih (t.layout.le_stopFrom _ _ _)
  rintro ⟨hroom, -⟩
  omega

/-- Walks through rows that can be read whatever is stored in them are faithful: such rows are
unreadable only where bytes are missing. -/
lemma iteratesFaithfully_of_isPlain (h : kind.IsPlain) : t.IteratesFaithfully := by
  rw [iteratesFaithfully_iff, call_add_length_eq_none_iff]
  by_cases hcount : t.rows.length = t.rowCount
  · exact .inl hcount
  have hlt : t.rows.length < t.rowCount := Nat.lt_of_le_of_ne t.rows_eq_first.1 hcount
  refine .inr (t.not_holdsRowAt_retry ?_)
  by_contra hroom
  have hsome : (t.get? (t.rows.length + 1)).isSome := by
    refine (Walk.isSome_get?_succ_iff hlt).mpr ⟨Nat.not_lt.mp hroom, fun x hx => ?_⟩
    exact h x.1 (Layout.fst_mem_of_mem_stored hx) x.2
  rw [← t.call_of_le_length (Nat.le_refl _), t.call_length_rows] at hsome
  cases hsome

/-- The rows of the calls that give a row are the rows in order. -/
lemma yielded_length_rows : t.yielded t.rows.length = t.rows := by
  have hcalls : (List.range t.rows.length).map t.call = t.rows.map some := by
    rw [t.rows_eq_first.2.1, List.range'_eq_map_range, List.map_map]
    refine List.map_congr_left fun n hn => ?_
    rw [t.call_of_le_length (List.mem_range.mp hn).le, Function.comp_apply, Nat.add_comm]
  have hrows := congrArg (List.filterMap id) hcalls
  rw [List.filterMap_map, List.filterMap_map] at hrows
  exact hrows.trans (List.filterMap_some)

/-- **What any number of calls of a walk gives**, for every kind of rows, any data, row count and
layout.

* The rows of all calls have the numbers 1, 2, … without a gap.
* The calls up to the first one that gives nothing give the rows that the table gives for their
  numbers.
* The walk is faithful — each row is the one that the table gives for its number, and once a call
  has given nothing no later one gives a row — exactly when the rows in order are all rows of the
  table, or when no row can be read at any of the places at which it tries again.
* It is faithful for all kinds of rows but three, which have coded indices with tags to spare.

**Proof sketch.** A call either gives the row at the place of the walk and moves one width on, or
gives nothing and moves to where reading stopped. Up to the first unreadable row the walk therefore
stands behind the rows that it gave (`Walk.after_eq_behind`), and from then on at the places to try
at (`Walk.after_add_length`). -/
theorem walk_calls {kind : RowKind} (t : Table kind.Row) :
    (∀ n, (t.yielded n).map kind.rid = List.range' 1 (t.yielded n).length) ∧
    (t.yielded t.rows.length = t.rows ∧ t.call t.rows.length = none ∧
      ∀ n ≤ t.rows.length, t.call n = t.get? (n + 1)) ∧
    (t.IteratesFaithfully ↔
      t.rows.length = t.rowCount ∨ ∀ n, ¬t.HoldsRowAt (t.retry n)) ∧
    (t.IteratesFaithfully ∨ kind ∈ [.typeDef, .memberRef, .customAttribute]) := by
  refine ⟨fun n => (Walk.exists_after_eq t n).2,
    ⟨t.yielded_length_rows, t.call_length_rows, fun n => t.call_of_le_length⟩, ?_, ?_⟩
  · rw [iteratesFaithfully_iff, call_add_length_eq_none_iff]
  · by_cases hkind : kind ∈ [RowKind.typeDef, .memberRef, .customAttribute]
    · exact .inr hkind
    · exact .inl (t.iteratesFaithfully_of_isPlain (RowKind.isPlain_of_notMem hkind))

/-! ## A row behind an unreadable one -/

/-- Three references to members, of which the second cannot be read, since its tag selects no table.
The bytes behind this tag can be read as a row, across the start of the third one. -/
def unreadableMemberRefs : Table RowKind.memberRef.Row where
  data := ⟨#[0x08, 0x00, 0x01, 0x00, 0x02, 0x00, 0x07, 0x00, 0x08, 0x00, 0x03, 0x00, 0x10, 0x00,
    0x0D, 0x00, 0x06, 0x00]⟩
  start := 0
  rowCount := 3
  layout :=
    { rowCount := fun t => if t = .memberRef then 3 else 0
      wideStrings := false
      wideGuids := false
      wideBlobs := false }

/-- **A walk gives a row after it has given nothing.** The second call gives nothing, since the
second row cannot be read; the third one gives what lies behind the tag of this row, with the number
two, for which the table has no row. -/
theorem row_behind_unreadable_row :
    unreadableMemberRefs.call 0 = some (⟨1, ⟨.typeDef, 1⟩, 1, 2⟩ : MemberRefRow) ∧
    unreadableMemberRefs.call 1 = none ∧
    unreadableMemberRefs.call 2 = some (⟨2, ⟨.typeDef, 1⟩, 3, 0x10⟩ : MemberRefRow) ∧
    unreadableMemberRefs.get? 2 = none ∧ ¬unreadableMemberRefs.IteratesFaithfully := by
  have hsecond : unreadableMemberRefs.call 1 = none := by rfl
  have hthird : unreadableMemberRefs.call 2 =
      some (⟨2, ⟨.typeDef, 1⟩, 3, 0x10⟩ : MemberRefRow) := by rfl
  refine ⟨by rfl, hsecond, hthird, by rfl, fun h => ?_⟩
  have hnone := h.ended 1 2 (by decide) hsecond
  rw [hthird] at hnone
  cases hnone

end Table

end TypeInventory
