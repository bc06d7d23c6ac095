import TypeInventory.Bytes.Cursor
import TypeInventory.Text.Utf8

set_option relaxedAutoImplicit false
set_option autoImplicit false

/-!
# The metadata root

Metadata start with a root: a signature, two version numbers, the version of the runtime as
text, and the list of streams that hold everything else. Streams are found by name.

## Main definitions

* `StreamHeader` — place, size and name of a stream.
* `MetadataRoot`, `MetadataRoot.ofBytes` — the root and how it is read.
* `MetadataRoot.stream?` — the contents of the stream of a given name.
-/

namespace TypeInventory

/-! ## Stream headers -/

/-- Place, size and name of a stream. -/
structure StreamHeader where
  /-- Distance of the stream from the start of the metadata. -/
  offset : Nat
  /-- Number of bytes. -/
  size : Nat
  /-- Name. -/
  name : String
deriving DecidableEq, Repr, Inhabited

/-- The length of a name in a stream header: its bytes and a zero, filled up to a multiple of
four. -/
def paddedLength (nameLength : Nat) : Nat :=
  (nameLength + 4) / 4 * 4

/-- The bytes before the first zero. -/
def beforeZero (bytes : List UInt8) : List UInt8 :=
  bytes.takeWhile (· != 0)

/-- A stream header: offset and size in four bytes each, then the name, of which the zero at the
end must be among the next 32 bytes. The cursor then stands behind the padding of the name, which
may lie past the end of the data. -/
def StreamHeader.read : Reader StreamHeader := do
  let c ← get
  if c.remaining < 9 then
    throw .outOfBounds
  let offset ← Reader.word 4
  let size ← Reader.word 4
  let area := (c.data.extract (c.pos + 8) (c.pos + 40)).data.toList
  let name := beforeZero area
  if name.length = area.length then
    throw .outOfBounds
  set { c with pos := c.pos + 8 + paddedLength name.length }
  return ⟨offset, size, Text.repairUtf8 name⟩

/-- A stream header, whose stream must lie within the data. -/
def StreamHeader.readWithin : Reader StreamHeader := do
  let header ← StreamHeader.read
  let c ← get
  if 0x100000000 ≤ header.offset + header.size then
    throw (.malformed (.streamOverflow header.offset header.size))
  if c.data.size < header.offset + header.size then
    throw .outOfBounds
  return header

/-! ## The root -/

/-- The number that metadata start with: the letters `BSJB`. -/
def rootSignature : Nat := 0x424A5342

/-- What the metadata root says. -/
structure MetadataRoot where
  /-- Major version number. -/
  major : Nat
  /-- Minor version number. -/
  minor : Nat
  /-- Version of the runtime. -/
  version : String
  /-- The streams in the order of declaration. -/
  streams : List StreamHeader
deriving DecidableEq, Repr, Inhabited

namespace MetadataRoot

/-- Fails unless `n` bytes are left. -/
def need (n : Nat) : Reader Unit := do
  let c ← get
  if c.remaining < n then
    throw .outOfBounds

/-- The root at the cursor. Every stream has to lie within the data. -/
def read : Reader MetadataRoot := do
  need 20
  let signature ← Reader.word 4
  if signature ≠ rootSignature then
    throw (.malformed (.rootSignature signature))
  let major ← Reader.word 2
  let minor ← Reader.word 2
  Reader.skip 4
  let versionLength ← Reader.word 4
  need (versionLength + 4)
  let version ← Reader.bytes versionLength
  Reader.skip 2
  let count ← Reader.word 2
  if count = 0 then
    throw (.malformed .noStreams)
  let streams ← collect StreamHeader.readWithin count
  return ⟨major, minor, Text.repairUtf8 (beforeZero version.data.toList), streams⟩

/-- The root of metadata. -/
def ofBytes (metadata : ByteArray) : Except Fault MetadataRoot :=
  read.runOn metadata

/-- The header of the stream of a given name; the first one, if there are several. -/
def header? (root : MetadataRoot) (name : String) : Option StreamHeader :=
  root.streams.find? fun header => header.name == name

/-- The contents of the stream of a given name in the metadata that the root was read from. -/
def stream? (root : MetadataRoot) (metadata : ByteArray) (name : String) : Option ByteArray :=
  (root.header? name).map fun header =>
    metadata.extract header.offset (header.offset + header.size)

end MetadataRoot

end TypeInventory
