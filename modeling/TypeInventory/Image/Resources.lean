import TypeInventory.Image.Loaded

set_option relaxedAutoImplicit false
set_option autoImplicit false

/-!
# Resources of an image

Resources are found through tables of entries. An entry has a number or a name, and leads to another
table or to data. The outermost table sorts resources by kind; a loader reads those that tell the
version of the program and those that tell what it depends on, in each table by the first entry.

The version is a sequence of named values, the first of which has a fixed form.

The check of resources restates the one of the reader of images on which loading relies. It can only
make an image be refused, and no theorem depends on it.

## Main definitions

* `ResourceEntry`, `ResourceEntry.dataPlace?` — an entry of a table, and the data it leads to.
* `VersionValue` — a named value.
* `LoadedImage.checkResources` — whether version and dependencies can be read.
-/

namespace TypeInventory

/-! ## Tables -/

/-- An entry of a table of resources. -/
structure ResourceEntry where
  /-- The number of the entry; with the highest bit set, the place of its name. -/
  name : Nat
  /-- The place of the data that the entry leads to; with the highest bit set, that of a table. -/
  target : Nat
deriving DecidableEq, Repr, Inhabited

namespace ResourceEntry

/-- The highest bit of what an entry says. -/
def highBit : Nat := 0x80000000

/-- The number of an entry, unless it has a name. Only the lower half of it counts. -/
def number? (e : ResourceEntry) : Option Nat :=
  if e.name < highBit then some (e.name % 0x10000) else none

/-- The place of the table that an entry leads to, unless it leads to data. -/
def table? (e : ResourceEntry) : Option Nat :=
  if e.target < highBit then none else some (e.target - highBit)

/-- An entry. -/
def read : Reader ResourceEntry := do
  let name ← Reader.word 4
  let target ← Reader.word 4
  return ⟨name, target⟩

/-- The number of entries at the start of a table, with or without names. -/
def readCount : Reader Nat := do
  Reader.skip 12
  let named ← Reader.word 2
  let numbered ← Reader.word 2
  return named + numbered

/-- The entries of a table. -/
def readTable : Reader (List ResourceEntry) := do
  let count ← readCount
  collect read count

/-- The first entry of a table, if it has one. The others must be there, too. -/
def readFirst? : Reader (Option ResourceEntry) := do
  match ← readCount with
  | 0 => return none
  | others + 1 =>
    let first ← read
    Reader.skip (8 * others)
    return some first

/-- The place of the data that an entry leads to by the first entries of at most `n` tables; nothing
if one of the tables is empty. -/
def dataPlace? (area : ByteArray) (position : Nat) : Nat → ResourceEntry →
    Except Fault (Option Nat)
  | 0, _ => .error (.image (.directory position))
  | n + 1, e => do
    match e.table? with
    | none => return some e.target
    | some place =>
      match ← readImageAt area place readFirst? with
      | some first => dataPlace? area position n first
      | none => return none

end ResourceEntry

/-! ## Versions -/

/-- A named value of a version. -/
structure VersionValue where
  /-- The units of the name. -/
  name : List Nat
  /-- The value. -/
  value : ByteArray

namespace VersionValue

/-- The name of the value that has a fixed form. -/
def fixedName : List Nat :=
  "VS_VERSION_INFO".toList.map Char.toNat

/-- The size of the value that has a fixed form. -/
def fixedSize : Nat := 52

/-- Passes on to the next multiple of four. -/
def align : Reader Unit :=
  modify fun c => { c with pos := roundUp 4 c.pos }

/-- The next unit of a name, unless it is the zero behind the last one. -/
def readUnit? : Reader (Option Nat) := do
  let unit ← Reader.word 2
  return if unit = 0 then none else some unit

/-- A name in units of two bytes, of which there are at most `n`, and the zero behind it. -/
def readName (n : Nat) : Reader (List Nat) :=
  collectWhile readUnit? n

/-- A named value, unless there is no more or a length of zero says so: the length of all, the
length of the value, a kind, the name and the value, both filled up to a multiple of four. The
length of all is of no account, as the values within a value simply follow it. Values of kind one
are texts, the length of which counts units. -/
def read? : Reader (Option VersionValue) := do
  let c ← get
  if !c.hasMore then
    return none
  if (← Reader.word 2) = 0 then
    return none
  let length ← Reader.word 2
  let kind ← Reader.word 2
  let name ← readName (c.remaining + 1)
  align
  let value ←
    if length = 0 then pure .empty
    else Reader.bytes (if kind = 1 then 2 * length else length)
  align
  return some { name, value }

/-- All named values of a version. -/
def ofBytes (data : ByteArray) : Except Fault (List VersionValue) :=
  readImageAt data 0 (collectWhile read? (data.size + 1))

end VersionValue

namespace LoadedImage

variable (image : LoadedImage)

/-! ## Kinds of resources -/

/-- The number of resources that tell the version of the program. -/
def versionNumber : Nat := 16

/-- The number of resources that tell what the program depends on. -/
def dependencyNumber : Nat := 24

/-- The address and the size of a resource. -/
def readResource : Reader DataDirectory := do
  let address ← Reader.word 4
  let size ← Reader.word 4
  Reader.skip 8
  return ⟨address, size⟩

/-- The bytes of the first resource of a kind, if there is one. Tables and the addresses of
resources lie in the bytes `area`. -/
def resource? (position : Nat) (area : ByteArray) (table : List ResourceEntry) (number : Nat) :
    Except Fault (Option ByteArray) := do
  match table.find? fun e => e.number? == some number with
  | none => return none
  | some e =>
    match ← e.dataPlace? area position (area.size + 1) with
    | none => return none
    | some place => some <$> image.contents (← readImageAt area place readResource)

/-- Checks that the value with a fixed form, if there is one, is long enough. -/
def checkVersion (position : Nat) (data : ByteArray) : Except Fault Unit := do
  let values ← VersionValue.ofBytes data
  match values.find? fun v => v.name == VersionValue.fixedName with
  | none => return
  | some v =>
    if v.value.size < VersionValue.fixedSize then
      throw (.image (.directory position))

/-- Checks the resources that a directory leads to. -/
def checkResources (position : Nat) (d : DataDirectory) : Except Fault Unit := do
  let area ← image.contents d
  let table ← readImageAt area 0 ResourceEntry.readTable
  match ← image.resource? position area table versionNumber with
  | some version => checkVersion position version
  | none => pure ()
  let _ ← image.resource? position area table dependencyNumber

end LoadedImage

end TypeInventory
