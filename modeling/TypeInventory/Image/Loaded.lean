import TypeInventory.Image.Headers

set_option relaxedAutoImplicit false
set_option autoImplicit false

/-!
# Images as they are loaded

What the directories of an image lead to is given by addresses in memory. A loader finds it in the
file by the strict rule for sections.

## Main definitions

* `LoadedImage`, `LoadedImage.place` — an image, and the place that an address has in the file.
* `LoadedImage.checkRange`, `LoadedImage.contents` — the place and the bytes that a directory leads
  to, if they are all in the file.
* `LoadedImage.checkWords` — a check of words up to a zero.
-/

namespace TypeInventory

/-- An image with what its headers say. -/
structure LoadedImage where
  /-- The whole image. -/
  data : ByteArray
  /-- The machine that the image is made for. -/
  machine : Nat
  /-- The optional header. -/
  header : OptionalHeader
  /-- The sections. -/
  sections : List Section

namespace LoadedImage

variable (image : LoadedImage)

/-- The place in the file that an address has by the strict rule, which needs a power of two for the
alignment of contents. -/
def place? (address : Nat) : Option Nat :=
  if isPowerOfTwo image.header.fileAlignment then
    loadedOffset? image.header.fileAlignment image.sections address
  else
    none

/-- The place in the file that an address must have. -/
def place (address : Nat) : Except Fault Nat :=
  match image.place? address with
  | some offset => .ok offset
  | none => .error (.image (.unmapped address))

/-- The place in the file that an absolute address must have, which does not lie before the
image. -/
def placeOfAbsolute (address : Nat) : Except Fault Nat :=
  if address < image.header.imageBase then .error (.image (.unmapped address))
  else image.place (address - image.header.imageBase)

/-- Reads at a place of the file. -/
def readAt {α : Type} (offset : Nat) (r : Reader α) : Except Fault α :=
  readImageAt image.data offset r

/-- Checks that bytes lie in the file. -/
def checkBytes (offset size : Nat) : Except Fault Unit :=
  if image.data.size < offset + size then .error (.image .truncated) else .ok ()

/-- The place of what a directory leads to, all of which must lie in the file. -/
def checkRange (d : DataDirectory) : Except Fault Nat := do
  let offset ← image.place d.address
  image.checkBytes offset d.size
  return offset

/-- What a directory leads to, all of which must lie in the file. -/
def contents (d : DataDirectory) : Except Fault ByteArray := do
  let offset ← image.checkRange d
  return image.data.extract offset (offset + d.size)

/-- Checks the words from a place on, at most `n` of them, before the first zero among them. There
must be a zero. -/
def checkWords (check : Nat → Except Fault Unit) : Nat → Nat → Except Fault Unit
  | 0, _ => .error (.image .truncated)
  | n + 1, offset => do
    let word ← image.readAt offset (Reader.word image.header.wordSize)
    if word = 0 then
      return
    check word
    checkWords check n (offset + image.header.wordSize)

/-- The greatest number of words that the file has room for. -/
def wordLimit : Nat :=
  image.data.size + 1

end LoadedImage

end TypeInventory
