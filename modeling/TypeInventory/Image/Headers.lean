import TypeInventory.Image.BuildRecord
import TypeInventory.Image.Section
import TypeInventory.Image.SectionName

set_option relaxedAutoImplicit false
set_option autoImplicit false

/-!
# The headers of an image

An executable image starts with a header of its own, which leads to the image headers: a file
header, an optional header with data directories, and the headers of the sections.

The checks of headers restate those of the reader of images on which loading relies, in their order.
They decide which images are refused, and no theorem depends on them.

## Main definitions

* `ImageHeaders`, `ImageHeaders.ofBytes` — the headers of an image and how they are read.
* `OptionalHeader.directory?` — the directory at a position, if it leads to something.
-/

namespace TypeInventory

/-! ## What headers say -/

/-- An address in memory and a size. -/
structure DataDirectory where
  /-- The address. -/
  address : Nat
  /-- The size. -/
  size : Nat
deriving DecidableEq, Repr, Inhabited

/-- Whether a directory leads to something. -/
def DataDirectory.isPresent (d : DataDirectory) : Bool :=
  d.address != 0 || d.size != 0

/-- What the file header of an image says. -/
structure FileHeader where
  /-- The machine that the image is made for. -/
  machine : Nat
  /-- The number of sections. -/
  sectionCount : Nat
  /-- The size of the optional header. -/
  optionalSize : Nat
deriving DecidableEq, Repr, Inhabited

/-- What the optional header of an image says. -/
structure OptionalHeader where
  /-- The number of bytes of an address in memory. -/
  wordSize : Nat
  /-- The address in memory at which the image wants to lie. -/
  imageBase : Nat
  /-- The alignment of contents in the file. -/
  fileAlignment : Nat
  /-- The data directories. -/
  directories : List DataDirectory
deriving DecidableEq, Repr, Inhabited

namespace OptionalHeader

/-- The directory at a position, if it leads to something. -/
def directory? (header : OptionalHeader) (position : Nat) : Option DataDirectory :=
  header.directories[position]?.filter DataDirectory.isPresent

/-- The position of the directory of the runtime header. -/
def runtimePosition : Nat := 14

/-- The directory of the runtime header, if there is one. -/
def runtime? (header : OptionalHeader) : Option DataDirectory :=
  header.directory? runtimePosition

end OptionalHeader

/-- The size of the header of the runtime. -/
def runtimeHeaderSize : Nat := 72

/-- The headers of an image. -/
structure ImageHeaders where
  /-- The file header. -/
  file : FileHeader
  /-- The optional header, if there is one. -/
  optional? : Option OptionalHeader
  /-- The sections in the order of declaration. -/
  sections : List Section
deriving DecidableEq, Repr, Inhabited

/-! ## Reading at places -/

/-- Reads at a place of an image. -/
def readImageAt {α : Type} (data : ByteArray) (offset : Nat) (r : Reader α) : Except Fault α :=
  match r.run ⟨data, offset⟩ with
  | .ok a _ => .ok a
  | .error (.image cause) _ => .error (.image cause)
  | .error _ _ => .error (.image .truncated)

/-- The text of bytes that must be UTF-8. -/
def imageText (bytes : ByteArray) : Except Fault String :=
  match String.fromUTF8? bytes with
  | some text => .ok text
  | none => .error (.image .text)

/-- The text from a place of an image on, up to the first zero or the end of the image, where it may
also start. -/
def readTextAt (data : ByteArray) (offset : Nat) : Except Fault String :=
  if data.size < offset then
    .error (.image .truncated)
  else
    let isZero (place : Nat) : Bool := data[place]? == some 0
    imageText (data.extract offset
      ((firstPlace? isZero (data.size - offset) offset).getD data.size))

namespace ImageHeaders

/-! ## The first header -/

/-- The number that images start with: the letters `MZ`. -/
def firstSignature : Nat := 0x5A4D

/-- The size of the first header. -/
def firstHeaderSize : Nat := 64

/-- Where the first header tells the place of the image headers. -/
def headersPointer : Nat := 0x3C

/-- The number that image headers start with: the letters `PE` and two zeros. -/
def imageSignature : Nat := 0x4550

/-- The place of the file header, behind the signature of the image headers. -/
def locateFileHeader (data : ByteArray) : Except Fault Nat := do
  let first ← readImageAt data 0 (Reader.word 2)
  if first ≠ firstSignature then
    throw (.image (.dosSignature first))
  if data.size < firstHeaderSize then
    throw (.image .truncated)
  let start ← readImageAt data headersPointer (Reader.word 4)
  if start < firstHeaderSize then
    throw (.image (.headersPlace start))
  let signature ← readImageAt data start (Reader.word 4)
  if signature ≠ imageSignature then
    throw (.image .imageSignature)
  checkBuildRecord data firstHeaderSize start
  return start + 4

/-! ## The file header -/

/-- The size of the file header. -/
def fileHeaderSize : Nat := 20

/-- The file header. -/
def readFileHeader : Reader FileHeader := do
  let machine ← Reader.word 2
  let sectionCount ← Reader.word 2
  Reader.skip 12
  let optionalSize ← Reader.word 2
  Reader.skip 2
  return { machine, sectionCount, optionalSize }

/-! ## The optional header -/

/-- The number of directories that an image may have. -/
def directoryLimit : Nat := 16

/-- The number of bytes of an address, by the number that the optional header starts with. -/
def wordSize? (magic : Nat) : Option Nat :=
  if magic = 0x10B then some 4
  else if magic = 0x20B then some 8
  else none

/-- A directory. -/
def readDirectory : Reader DataDirectory := do
  let address ← Reader.word 4
  let size ← Reader.word 4
  return ⟨address, size⟩

/-- The optional header of an image whose addresses have a given number of bytes. -/
def readOptionalFields (wordSize : Nat) : Reader OptionalHeader := do
  Reader.skip (32 - wordSize)
  let imageBase ← Reader.word wordSize
  Reader.skip 4
  let fileAlignment ← Reader.word 4
  Reader.skip (36 + 4 * wordSize)
  let count ← Reader.word 4
  if directoryLimit < count then
    throw (.image (.directoryCount count))
  let directories ← collect readDirectory count
  return { wordSize, imageBase, fileAlignment, directories }

/-- The optional header at a place. -/
def readOptionalHeader (data : ByteArray) (start : Nat) : Except Fault OptionalHeader := do
  let magic ← readImageAt data start (Reader.word 2)
  match wordSize? magic with
  | some wordSize => readImageAt data start (readOptionalFields wordSize)
  | none => throw (.image (.optionalHeaderMagic magic))

/-! ## Sections -/

/-- The size of the header of a section. -/
def sectionHeaderSize : Nat := 40

/-- The header of a section, with the field for its name. -/
def readSection : Reader (ByteArray × Section) := do
  let name ← Reader.bytes SectionName.fieldSize
  let memorySize ← Reader.word 4
  let address ← Reader.word 4
  let fileSize ← Reader.word 4
  let fileStart ← Reader.word 4
  Reader.skip 16
  return (name, { address, memorySize, fileStart, fileSize })

/-- Checks that a section has a name. A long one need not be found in the table of strings. -/
def checkSectionName (field : ByteArray) : Except Fault Unit :=
  match SectionName.ofField? field.data.toList with
  | some _ => .ok ()
  | none => .error (.image .sectionName)

/-! ## All headers -/

/-- The headers of an image. -/
def ofBytes (data : ByteArray) : Except Fault ImageHeaders := do
  let start ← locateFileHeader data
  let file ← readImageAt data start readFileHeader
  let optionalStart := start + fileHeaderSize
  let optional? ←
    if file.optionalSize = 0 then pure none else some <$> readOptionalHeader data optionalStart
  if data.size / sectionHeaderSize < file.sectionCount then
    throw (.image (.sectionCount file.sectionCount))
  let sections ←
    readImageAt data (optionalStart + file.optionalSize) (collect readSection file.sectionCount)
  sections.forM fun (name, _) => checkSectionName name
  return { file, optional?, sections := sections.map Prod.snd }

end ImageHeaders

end TypeInventory
