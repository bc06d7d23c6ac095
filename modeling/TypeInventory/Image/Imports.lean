import TypeInventory.Image.Loaded

set_option relaxedAutoImplicit false
set_option autoImplicit false

/-!
# Imports of an image

An image names the libraries that it needs, and for each of them two tables of words, which end
with a zero: what is looked up in the library, by number or by name, and the addresses that are
found. The list of libraries ends with an entry that lacks the name or the addresses.

The check of imports restates the one of the reader of images on which loading relies. It can only
make an image be refused, and no theorem depends on it.

## Main definitions

* `ImportEntry` — what an image says about a library that it needs.
* `LoadedImage.checkImports` — whether all names and tables can be read.
-/

namespace TypeInventory

/-- What an image says about a library that it needs. -/
structure ImportEntry where
  /-- The address of the table of what is looked up. -/
  lookups : Nat
  /-- The address of the name of the library. -/
  name : Nat
  /-- The address of the table of addresses. -/
  addresses : Nat
deriving DecidableEq, Repr, Inhabited

namespace ImportEntry

/-- The size of an entry. -/
def size : Nat := 20

/-- An entry. -/
def read : Reader ImportEntry := do
  let lookups ← Reader.word 4
  Reader.skip 8
  let name ← Reader.word 4
  let addresses ← Reader.word 4
  return { lookups, name, addresses }

/-- Whether an entry stands behind the last one: it lacks the name or the addresses. -/
def isEnd (e : ImportEntry) : Bool :=
  e.name == 0 || e.addresses == 0

end ImportEntry

namespace LoadedImage

variable (image : LoadedImage)

/-- Checks a word of a table of what is looked up. With its highest bit set it is a number.
Otherwise it is the address of a hint of two bytes and a name; without a place in the file it is
passed over. -/
def checkLookup (word : Nat) : Except Fault Unit := do
  if word < 1 <<< (8 * image.header.wordSize - 1) then
    match image.place? (word % 0x80000000) with
    | some offset =>
      image.checkBytes offset 2
      let _ ← readTextAt image.data (offset + 2)
    | none => return

/-- Checks the name of a library and both of its tables. What is looked up may be written into the
table of addresses alone. -/
def checkImport (e : ImportEntry) : Except Fault Unit := do
  let _ ← readTextAt image.data (← image.place e.name)
  match image.place? e.lookups <|> image.place? e.addresses with
  | some offset => image.checkWords image.checkLookup image.wordLimit offset
  | none => pure ()
  image.checkWords (fun _ => .ok ()) image.wordLimit (← image.place e.addresses)

/-- Checks at most `n` entries from a place on, up to the last one. -/
def checkImportsAt : Nat → Nat → Except Fault Unit
  | 0, _ => .error (.image .truncated)
  | n + 1, offset => do
    let entry ← image.readAt offset ImportEntry.read
    if entry.isEnd then
      return
    image.checkImport entry
    checkImportsAt n (offset + ImportEntry.size)

/-- Checks the imports that a directory leads to. -/
def checkImports (d : DataDirectory) : Except Fault Unit := do
  image.checkImportsAt (image.data.size / ImportEntry.size + 1) (← image.place d.address)

end LoadedImage

end TypeInventory
