import TypeInventory.Metadata.CodedIndex

set_option relaxedAutoImplicit false
set_option autoImplicit false

/-!
# The layout of tables

How many bytes a column takes depends on the module: a place in a heap takes two or four bytes
by a flag, a row of a table takes four when the table has more rows than two bytes can number,
and a coded index takes four when the rows of one of its tables and the tag together need more
than sixteen bits.

## Main definitions

* `Layout`, `Layout.read` — row counts and flags of a module.
* `Layout.rowIndexWidth`, `Layout.codedWidth`, `Layout.columnWidth`, `Layout.rowSize` — widths.
* `Reader.narrowOrWide`, `Reader.coded` — the next number of two or four bytes, and the next
  coded index.
-/

namespace TypeInventory

/-- How many bits the numbers of `rows` rows take; one for an empty table. -/
def rowBits (rows : Nat) : Nat :=
  if rows = 0 then 1 else rows.log2 + 1

/-- The bits that a mask of tables notes for one of `rows` rows; none for a table that the mask
does not name. -/
def notedBits (valid : Nat) (t : TableId) (rows : Nat) : Nat :=
  if valid.testBit t.number then rowBits rows else 0

/-- What the widths of columns depend on. -/
structure Layout where
  /-- The number of rows of each table. -/
  rowCount : TableId → Nat
  /-- Whether places in the heap of strings take four bytes. -/
  wideStrings : Bool
  /-- Whether places in the heap of identifiers take four bytes. -/
  wideGuids : Bool
  /-- Whether places in the heap of blobs take four bytes. -/
  wideBlobs : Bool

namespace Layout

/-- The layout that the given row counts, in the order of tables, and the given flags make. -/
def ofCounts (counts : List Nat) (flags : Nat) : Layout :=
  let counts := counts.toArray
  { rowCount := fun t => counts[t.number]?.getD 0
    wideStrings := flags.testBit 0
    wideGuids := flags.testBit 1
    wideBlobs := flags.testBit 2 }

/-! ## Widths -/

/-- Four bytes or two. -/
def width (wide : Bool) : Nat :=
  if wide then 4 else 2

/-- Whether rows of a table are numbered with four bytes. -/
def isWide (layout : Layout) (t : TableId) : Bool :=
  0xFFFF < layout.rowCount t

/-- The width of a row number of a table, by the bits that it takes. -/
def rowIndexWidth (layout : Layout) (t : TableId) : Nat :=
  width (16 < rowBits (layout.rowCount t))

/-- The bits of a coded index: those of the largest table it may refer to, and the tag. -/
def codedBits (layout : Layout) (kind : CodedKind) : Nat :=
  (kind.tables.map fun t => rowBits (layout.rowCount t)).foldl max 0 + kind.tagBits

/-- The width of a coded index. -/
def codedWidth (layout : Layout) (kind : CodedKind) : Nat :=
  width (16 < layout.codedBits kind)

/-- The width of a column. -/
def columnWidth (layout : Layout) : Column → Nat
  | .word16 => 2
  | .word32 => 4
  | .string => width layout.wideStrings
  | .guid => width layout.wideGuids
  | .blob => width layout.wideBlobs
  | .row t => layout.rowIndexWidth t
  | .coded kind => layout.codedWidth kind

/-- The width of a row of a table. -/
def rowSize (layout : Layout) (t : TableId) : Nat :=
  t.columns.foldr (fun c width => layout.columnWidth c + width) 0

/-! ## Reading -/

/-- The distance of the row counts from the start of a stream of tables. -/
def countsOffset : Nat := 24

/-- The distance of the flags from the start of a stream of tables. -/
def flagsOffset : Nat := 6

/-- The row counts of the tables whose bits are set in `valid`, four bytes each, and zero for the
others. -/
def readCounts (valid : Nat) : Reader (List Nat) :=
  TableId.all.mapM fun t => if valid.testBit t.number then Reader.word 4 else pure 0

/-- The layout of a stream of tables with the given mask of present tables. A mask that names
other tables is not supported. -/
def ofStream (data : ByteArray) (valid : Nat) : Except Fault Layout :=
  if valid >>> TableId.count = 0 then
    match (readCounts valid).run ⟨data, countsOffset⟩ with
    | .ok counts _ =>
      match data[flagsOffset]? with
      | some flags => .ok (ofCounts counts flags.toNat)
      | none => .error .outOfBounds
    | .error e _ => .error e
  else
    .error .notSupported

end Layout

namespace Reader

/-- The next number of four bytes, if it is wide, or of two. -/
def narrowOrWide (wide : Bool) : Reader Nat :=
  word (Layout.width wide)

/-- The next coded index. When its tag selects no table, the number has been read all the same. -/
def coded (layout : Layout) (kind : CodedKind) : Reader CodedIndex := do
  let value ← word (layout.codedWidth kind)
  match CodedIndex.decode? kind value with
  | some i => return i
  | none => throw .outOfBounds

end Reader

end TypeInventory
