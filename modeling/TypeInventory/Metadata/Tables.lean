import TypeInventory.Metadata.Row

set_option relaxedAutoImplicit false
set_option autoImplicit false

/-!
# The stream of tables

A stream of tables has a head, the row counts of the tables that are present, and then the rows
of these tables one table after another, in the order of their numbers.

## Main definitions

* `Table`, `Table.get?`, `Table.rows` — the rows of one table, one by one and all together.
* `Walk`, `Walk.next` — going through the rows of a table in order.
* `TableStream`, `TableStream.ofBytes`, `TableStream.table` — all tables.
-/

namespace TypeInventory

/-! ## One table -/

/-- The rows of one table: where they start, how many there are, and how wide columns are. -/
structure Table (α : Type) where
  /-- The bytes in which the rows lie. -/
  data : ByteArray
  /-- Where the first row starts. -/
  start : Nat
  /-- How many rows there are. -/
  rowCount : Nat
  /-- The widths of columns. -/
  layout : Layout

/-- Going through the rows of a table: how many have been read, and where the next one starts. -/
structure Walk (α : Type) where
  /-- The table. -/
  table : Table α
  /-- How many rows have been read. -/
  rowsRead : Nat
  /-- Where the next row starts. -/
  cursor : Cursor

section

variable {α : Type} [MetadataRow α]

namespace Table

/-- The width of a row. -/
def rowSize (t : Table α) : Nat :=
  t.layout.rowSize (MetadataRow.table α)

/-- Row `rid`, counted from one, unless there is no such row or it cannot be read. -/
def get? (t : Table α) (rid : Nat) : Option α :=
  if rid = 0 ∨ t.rowCount < rid then
    none
  else
    match (MetadataRow.read t.layout rid).run ⟨t.data, t.start + (rid - 1) * t.rowSize⟩ with
    | .ok row _ => some row
    | .error _ _ => none

/-- The start of a walk through the rows. -/
def walk (t : Table α) : Walk α :=
  ⟨t, 0, ⟨t.data, t.start⟩⟩

end Table

namespace Walk

/-- The next row, if there is one and it can be read. The columns of an unreadable row that were
read have been passed over; it does not count as read. -/
def next (w : Walk α) : Option α × Walk α :=
  if w.rowsRead < w.table.rowCount then
    match (MetadataRow.read w.table.layout (w.rowsRead + 1)).run w.cursor with
    | .ok row c => (some row, { w with rowsRead := w.rowsRead + 1, cursor := c })
    | .error _ c => (none, { w with cursor := c })
  else
    (none, w)

/-- At most `n` further rows, up to the first that cannot be read, behind the rows `done`, the
last one of which comes first. -/
def rowsInto (done : List α) : Nat → Walk α → List α
  | 0, _ => done.reverse
  | n + 1, w =>
    match w.next with
    | (some row, w') => rowsInto (row :: done) n w'
    | (none, _) => done.reverse

end Walk

/-- The rows in order, up to the first that cannot be read. -/
def Table.rows (t : Table α) : List α :=
  t.walk.rowsInto [] t.rowCount

end

/-! ## All tables -/

/-- The tables of a module. -/
structure TableStream where
  /-- The bytes of the stream. -/
  data : ByteArray
  /-- Major version number of the tables. -/
  major : Nat
  /-- Minor version number of the tables. -/
  minor : Nat
  /-- The mask of tables that are present. -/
  valid : Nat
  /-- The mask of tables that are sorted. -/
  sorted : Nat
  /-- Row counts and widths. -/
  layout : Layout
  /-- Where the tables with rows start. -/
  starts : List (TableId × Nat)

namespace TableStream

/-- The size of the head of a stream of tables. -/
def headSize : Nat := 24

/-- The bit of the flags that announces four extra bytes behind the row counts. -/
def extraDataBit : Nat := 6

/-- Where the tables with rows start, if they follow one another from `offset` on. None of them
may run past the `size` bytes of the stream. -/
def locate (layout : Layout) (size : Nat) : List TableId → Nat → Except Fault (List (TableId × Nat))
  | [], _ => .ok []
  | t :: ts, offset =>
    if layout.rowCount t = 0 then
      locate layout size ts offset
    else
      let stop := offset + layout.rowCount t * layout.rowSize t
      if size < stop then
        .error .outOfBounds
      else
        (locate layout size ts stop).map ((t, offset) :: ·)

/-- How many tables a mask of tables names. -/
def maskSize (valid : Nat) : Nat :=
  TableId.all.countP fun t => valid.testBit t.number

/-- The head of a stream of tables: both version numbers, the flags, and the masks of present and
of sorted tables. -/
def readHead : Reader (Nat × Nat × Nat × Nat × Nat) := do
  Reader.skip 4
  let major ← Reader.word 1
  let minor ← Reader.word 1
  let flags ← Reader.word 1
  Reader.skip 1
  let valid ← Reader.word 8
  let sorted ← Reader.word 8
  return (major, minor, flags, valid, sorted)

/-- The tables in a stream. -/
def ofBytes (data : ByteArray) : Except Fault TableStream := do
  let (major, minor, flags, valid, sorted) ← readHead.runOn data
  if valid = 0 then
    throw (.malformed .noTables)
  let layout ← Layout.ofStream data valid
  let extra := if flags.testBit extraDataBit then 4 else 0
  let starts ← locate layout data.size TableId.all (headSize + 4 * maskSize valid + extra)
  return { data, major, minor, valid, sorted, layout, starts }

/-- The table that holds rows of type `α`; it has no rows if the module has no such table. -/
def table (s : TableStream) (α : Type) [MetadataRow α] : Table α where
  data := s.data
  start := (s.starts.lookup (MetadataRow.table α)).getD 0
  rowCount := s.layout.rowCount (MetadataRow.table α)
  layout := s.layout

end TableStream

end TypeInventory
