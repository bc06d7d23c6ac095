import TypeInventory.Image.Loaded

set_option relaxedAutoImplicit false
set_option autoImplicit false

/-!
# Data for debugging

A directory of an image leads to a table, each entry of which tells the kind, the size and the place
of data for debugging. Of the kinds that a loader knows it reads the first entry.

The check of these data restates the one of the reader of images on which loading relies. It can
only make an image be refused, and no theorem depends on it.

## Main definitions

* `DebugEntry` — an entry of the table.
* `LoadedImage.checkDebugging` — whether the data of known kinds can be read.
-/

namespace TypeInventory

/-! ## Entries -/

/-- An entry of the table for debugging. -/
structure DebugEntry where
  /-- The kind of the data. -/
  kind : Nat
  /-- The size of the data. -/
  size : Nat
  /-- The place of the data in the file. -/
  start : Nat
deriving DecidableEq, Repr, Inhabited

namespace DebugEntry

/-- The size of an entry. -/
def entrySize : Nat := 28

/-- An entry. -/
def read : Reader DebugEntry := do
  Reader.skip 12
  let kind ← Reader.word 4
  let size ← Reader.word 4
  Reader.skip 4
  let start ← Reader.word 4
  return { kind, size, start }

/-- The kind of data that lead to the symbols of the program. -/
def symbols : Nat := 2

/-- The kind of data that count the uses of guards. -/
def guards : Nat := 12

/-- The kind of data about optimisation by profiles. -/
def profile : Nat := 13

/-- The kind of data that tell builds apart which give the same bytes each time. -/
def reproduction : Nat := 16

/-- The kind of data that extend the properties of the image. -/
def properties : Nat := 20

end DebugEntry

namespace LoadedImage

variable (image : LoadedImage)

/-! ## Kinds of data -/

/-- The least size of data that lead to symbols. -/
def leastSymbols : Nat := 24

/-- The numbers that data start with which identify symbols by a long number, `RSDS`, or by a time,
`NB10`. They end with the name of a file. -/
def symbolMarks : List Nat := [0x53445352, 0x3031424E]

/-- Checks data that lead to symbols. With an unknown number in front nothing more is read. -/
def checkSymbols (position : Nat) (e : DebugEntry) : Except Fault Unit := do
  if e.size < leastSymbols then
    throw (.image (.directory position))
  let mark ← image.readAt e.start (Reader.word 4)
  if symbolMarks.contains mark then
    image.checkBytes e.start e.size

/-- Checks data that count the uses of guards: five numbers, whatever their size is said to be. -/
def checkGuards (e : DebugEntry) : Except Fault Unit :=
  image.checkBytes e.start 20

/-- The numbers that data about profiles start with. -/
def profileMarks : List Nat := [0x4C544347, 0x50475500]

/-- The size of the number that data about profiles start with. -/
def profileMarkSize : Nat := 4

/-- Checks data about profiles. With an unknown number in front nothing more is read; behind a known
one there must be something. -/
def checkProfile (position : Nat) (e : DebugEntry) : Except Fault Unit := do
  let mark ← image.readAt e.start (Reader.word 4)
  if profileMarks.contains mark then
    if e.size ≤ profileMarkSize then
      throw (.image (.directory position))
    image.checkBytes e.start e.size

/-- Checks data that tell builds apart, if there are any: a length and that many bytes. -/
def checkReproduction (e : DebugEntry) : Except Fault Unit := do
  if e.size ≠ 0 then
    let length ← image.readAt e.start (Reader.word 4)
    image.checkBytes (e.start + 4) length

/-- Checks data that extend the properties of the image: one number. -/
def checkProperties (e : DebugEntry) : Except Fault Unit :=
  image.checkBytes e.start 4

/-! ## The table -/

/-- The entries of a table for debugging. What is left behind the last whole entry is not read. -/
def readDebugEntries (d : DataDirectory) : Except Fault (List DebugEntry) := do
  let table ← image.contents d
  readImageAt table 0 (collect DebugEntry.read (table.size / DebugEntry.entrySize))

/-- Checks the first entry of each known kind in the table that a directory leads to. -/
def checkDebugging (position : Nat) (d : DataDirectory) : Except Fault Unit := do
  let entries ← image.readDebugEntries d
  let checkFirst (kind : Nat) (check : DebugEntry → Except Fault Unit) : Except Fault Unit :=
    match entries.find? fun e => e.kind == kind with
    | some e => check e
    | none => .ok ()
  checkFirst DebugEntry.symbols (image.checkSymbols position)
  checkFirst DebugEntry.guards image.checkGuards
  checkFirst DebugEntry.profile (image.checkProfile position)
  checkFirst DebugEntry.reproduction image.checkReproduction
  checkFirst DebugEntry.properties image.checkProperties

end LoadedImage

end TypeInventory
