import TypeInventory.Image.Directories
import TypeInventory.Module.Loading

set_option relaxedAutoImplicit false
set_option autoImplicit false

/-!
# Images

A module is stored as an executable image. Its metadata are found in three steps: a directory of
the image leads to the header of the runtime, which tells address and size of the metadata.

## Main definitions

* `slice` — a part of a byte sequence.
* `Image`, `Image.ofBytes` — an image with the directory of its runtime header.
* `RuntimeHeader`, `RuntimeHeader.ofBytes` — the header of the runtime.
* `Image.metadata`, `loadImage` — the metadata of an image, and the module that they describe.
-/

namespace TypeInventory

/-- The `length` bytes from `offset` on. -/
def slice (data : ByteArray) (offset length : Nat) : Except Fault ByteArray :=
  if offset + length ≤ data.size then
    .ok (data.extract offset (offset + length))
  else
    .error .outOfBounds

/-! ## The header of the runtime -/

/-- The header of the runtime. -/
structure RuntimeHeader where
  /-- Its own size. -/
  size : Nat
  /-- Major version number of the runtime. -/
  major : Nat
  /-- Minor version number of the runtime. -/
  minor : Nat
  /-- Address and size of the metadata. -/
  metadata : DataDirectory
  /-- Flags of the runtime. -/
  flags : Nat
  /-- The entry point: a token or an address. -/
  entryPoint : Nat
deriving DecidableEq, Repr, Inhabited

namespace RuntimeHeader

/-- The greatest plausible size of metadata. -/
def metadataLimit : Nat := 0x10000000

/-- The header at the cursor. -/
def read : Reader RuntimeHeader := do
  let size ← Reader.word 4
  if size ≠ runtimeHeaderSize then
    throw (.malformed (.runtimeHeaderSize size))
  let major ← Reader.word 2
  let minor ← Reader.word 2
  let address ← Reader.word 4
  if address = 0 then
    throw (.malformed .metadataAddressZero)
  let metadataSize ← Reader.word 4
  if metadataSize = 0 then
    throw (.malformed .metadataSizeZero)
  if metadataLimit < metadataSize then
    throw (.malformed (.metadataTooLarge metadataSize))
  let flags ← Reader.word 4
  let entryPoint ← Reader.word 4
  return { size, major, minor, metadata := ⟨address, metadataSize⟩, flags, entryPoint }

/-- The header at the start of a byte sequence. -/
def ofBytes (data : ByteArray) : Except Fault RuntimeHeader :=
  if data.size < runtimeHeaderSize then .error .outOfBounds else read.runOn data

end RuntimeHeader

/-! ## Images -/

/-- An image with a directory of a runtime header. -/
structure Image where
  /-- The whole image. -/
  data : ByteArray
  /-- The directory of the runtime header. -/
  runtime : DataDirectory
  /-- The sections. -/
  sections : List Section

namespace Image

/-- The image with the given bytes. -/
def ofBytes (data : ByteArray) : Except Fault Image := do
  if data.size = 0 then
    throw .empty
  let headers ← ImageHeaders.ofBytes data
  headers.checkDirectories data
  match headers.optional? with
  | none => throw (.malformed .noOptionalHeader)
  | some optional =>
    match optional.runtime? with
    | none => throw (.malformed .noRuntimeDirectory)
    | some runtime => return { data, runtime, sections := headers.sections }

/-- The place of an address in the file. -/
def offsetOf (image : Image) (address : Nat) : Except Fault Nat :=
  fileOffset image.sections address

/-- The metadata of an image. -/
def metadata (image : Image) : Except Fault ByteArray := do
  if image.runtime.address = 0 ∨ image.runtime.size < runtimeHeaderSize then
    throw (.malformed (.noMetadata image.runtime.address image.runtime.size))
  let headerStart ← image.offsetOf image.runtime.address
  let header ← RuntimeHeader.ofBytes (← slice image.data headerStart runtimeHeaderSize)
  let start ← image.offsetOf header.metadata.address
  slice image.data start header.metadata.size

end Image

/-- The module in an image, opened. -/
def OpenModule.ofImage (data : ByteArray) : Except Fault OpenModule := do
  let image ← Image.ofBytes data
  OpenModule.ofMetadata (← image.metadata)

/-- Loads the module in an image. -/
def loadImage (data : ByteArray) (find? : Option (String → Option String)) :
    Except Fault (LoadedModule × List LogEntry) :=
  return (← OpenModule.ofImage data).load find?

end TypeInventory
