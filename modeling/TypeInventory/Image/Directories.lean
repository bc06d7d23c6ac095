import TypeInventory.Image.Debugging
import TypeInventory.Image.Imports
import TypeInventory.Image.Resources

set_option relaxedAutoImplicit false
set_option autoImplicit false

/-!
# What the directories of an image lead to

The optional header of an image has directories, each of which leads to data of one kind. A loader
refuses an image when data that it knows are missing or damaged, whether they are needed or not.

These are the checks of the reader of images on which loading relies, restated here since they
decide which images are refused. No theorem depends on them.

## Main definitions

* `LoadedImage.checkDirectory` — the check of what one directory leads to, by its position.
* `ImageHeaders.checkDirectories` — the check of all directories.
-/

namespace TypeInventory

namespace LoadedImage

variable (image : LoadedImage)

/-! ## Exceptions -/

/-- The size of an entry of the table of functions, for machines on which exceptions are handled by
such a table. -/
def functionEntrySize? (machine : Nat) : Option Nat :=
  if machine = 0x8664 then some 12
  else if machine = 0xAA64 then some 8
  else none

/-- Checks that the table of functions has whole entries and starts at a multiple of four. -/
def checkExceptions (position : Nat) (d : DataDirectory) : Except Fault Unit := do
  match functionEntrySize? image.machine with
  | none => return
  | some size =>
    if d.size % size ≠ 0 then
      throw (.image (.directory position))
    if (← image.place d.address) % 4 ≠ 0 then
      throw (.image (.directory position))

/-! ## Certificates -/

/-- The head of a certificate: its length, head included, its revision and its kind. -/
def readCertificateHead : Reader (Nat × Nat × Nat) := do
  let length ← Reader.word 4
  let revision ← Reader.word 2
  let kind ← Reader.word 2
  return (length, revision, kind)

/-- Whether the head of a certificate has a known revision and a known kind. -/
def isKnownCertificate (revision kind : Nat) : Bool :=
  (revision == 0x100 || revision == 0x200) && 1 ≤ kind && kind ≤ 4

/-- Checks at most `n` certificates between two places. Each of them starts at a multiple of eight
behind the one before. -/
def checkCertificatesAt (position stop : Nat) : Nat → Nat → Except Fault Unit
  | 0, _ => .ok ()
  | n + 1, offset => do
    if stop ≤ offset then
      return
    let (length, revision, kind) ← image.readAt offset readCertificateHead
    let contents := length - 8
    image.checkBytes (offset + 8) contents
    if !isKnownCertificate revision kind then
      throw (.image (.directory position))
    checkCertificatesAt position stop n (roundUp 8 (offset + 8 + contents))

/-- Checks the certificates of an image. Their directory gives a place in the file. -/
def checkCertificates (position : Nat) (d : DataDirectory) : Except Fault Unit := do
  image.checkBytes d.address d.size
  image.checkCertificatesAt position (d.address + d.size) (d.size + 1) d.address

/-! ## Relocations and settings -/

/-- Checks that relocations lie in the file and start before its end. -/
def checkRelocations (d : DataDirectory) : Except Fault Unit := do
  if image.data.size ≤ (← image.checkRange d) then
    throw (.image .truncated)

/-- Checks that the settings of the loader lie in the file and have room for their own size. -/
def checkSettings (position : Nat) (d : DataDirectory) : Except Fault Unit := do
  let settings ← image.contents d
  if settings.size < 4 then
    throw (.image (.directory position))

/-! ## Threads -/

/-- What a thread has of its own when it starts: the absolute addresses of the start and the end of
its data, of the place for its number and of the functions to be called. -/
structure ThreadEntry where
  /-- The start of the data. -/
  start : Nat
  /-- The end of the data. -/
  stop : Nat
  /-- The place for the number of the thread's data. -/
  index : Nat
  /-- The table of functions. -/
  callbacks : Nat
deriving DecidableEq, Repr, Inhabited

/-- What a thread has of its own, in an image whose addresses have a given number of bytes. -/
def ThreadEntry.read (wordSize : Nat) : Reader ThreadEntry := do
  let start ← Reader.word wordSize
  let stop ← Reader.word wordSize
  let index ← Reader.word wordSize
  let callbacks ← Reader.word wordSize
  Reader.skip 8
  return { start, stop, index, callbacks }

/-- Checks the data that a thread starts with, if there are any: they must not end before they
start, nor start before the image. -/
def checkThreadData (position : Nat) (e : ThreadEntry) : Except Fault Unit :=
  if e.start ≠ 0 ∧ e.stop ≠ 0 ∧ (e.stop < e.start ∨ e.start < image.header.imageBase) then
    .error (.image (.directory position))
  else
    .ok ()

/-- Checks what a thread has of its own. -/
def checkThreads (position : Nat) (d : DataDirectory) : Except Fault Unit := do
  let offset ← image.place d.address
  let e ← image.readAt offset (ThreadEntry.read image.header.wordSize)
  image.checkThreadData position e
  if e.index ≠ 0 ∧ e.index < image.header.imageBase then
    throw (.image (.directory position))
  if e.callbacks ≠ 0 then
    let callback (address : Nat) : Except Fault Unit :=
      (image.placeOfAbsolute address).map fun _ => ()
    image.checkWords callback image.wordLimit (← image.placeOfAbsolute e.callbacks)

/-! ## The runtime -/

/-- The directory of the metadata in the header of the runtime. -/
def readMetadataDirectory : Reader DataDirectory := do
  Reader.skip 8
  let directory ← ImageHeaders.readDirectory
  Reader.skip (runtimeHeaderSize - 16)
  return directory

/-- The version text at the start of metadata, with what stands before and behind it. -/
def readVersion : Reader ByteArray := do
  Reader.skip 12
  let length ← Reader.word 4
  let version ← Reader.bytes length
  Reader.skip 4
  return version

/-- Checks that the runtime header and the metadata it leads to lie in the file, and that a version
text stands at the start of the metadata, even if it goes on behind them. -/
def checkRuntime (d : DataDirectory) : Except Fault Unit := do
  let headerStart ← image.place d.address
  let metadata ← image.readAt headerStart readMetadataDirectory
  let start ← image.checkRange metadata
  let _ ← imageText (← image.readAt start readVersion)

/-! ## All directories -/

/-- Checks what the directory at a position leads to. Those at other positions are not looked at. -/
def checkDirectory (position : Nat) (d : DataDirectory) : Except Fault Unit :=
  match position with
  | 1 => image.checkImports d
  | 2 => image.checkResources position d
  | 3 => image.checkExceptions position d
  | 4 => image.checkCertificates position d
  | 5 => image.checkRelocations d
  | 6 => image.checkDebugging position d
  | 9 => image.checkThreads position d
  | 10 => image.checkSettings position d
  | 14 => image.checkRuntime d
  | _ => .ok ()

/-- Checks what the directories from a position on lead to, if they lead to something. -/
def checkDirectoriesFrom (position : Nat) : List DataDirectory → Except Fault Unit
  | [] => .ok ()
  | d :: ds => do
    if d.isPresent then
      image.checkDirectory position d
    checkDirectoriesFrom (position + 1) ds

end LoadedImage

/-- Checks what the directories of an image lead to. -/
def ImageHeaders.checkDirectories (headers : ImageHeaders) (data : ByteArray) :
    Except Fault Unit :=
  match headers.optional? with
  | none => .ok ()
  | some header =>
    let image : LoadedImage :=
      { data, machine := headers.file.machine, header, sections := headers.sections }
    image.checkDirectoriesFrom 0 header.directories

end TypeInventory
