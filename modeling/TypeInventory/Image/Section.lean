import TypeInventory.Fault

set_option relaxedAutoImplicit false
set_option autoImplicit false

/-!
# Sections

An image is loaded section by section: each section occupies a range of virtual addresses, and its
contents lie somewhere in the file. There are two rules for the place of an address in the file.
The lenient one takes sections as declared; the strict one rounds them to the pages and to the
alignment with which they would be loaded.

## Main definitions

* `Section` — where a section lies in memory and in the file.
* `fileOffset` — the place of an address by the lenient rule.
* `Section.loadedSize`, `loadedOffset?` — the place of an address by the strict rule.
-/

namespace TypeInventory

/-- Where a section lies in memory and in the file. -/
structure Section where
  /-- Its address in memory. -/
  address : Nat
  /-- Its size in memory. -/
  memorySize : Nat
  /-- Its place in the file. -/
  fileStart : Nat
  /-- Its size in the file. -/
  fileSize : Nat
deriving DecidableEq, Repr, Inhabited

/-- One more than the largest address. -/
def addressLimit : Nat := 0x100000000

/-! ## The lenient rule -/

/-- The number of addresses that a section covers: the larger one of its sizes. -/
def Section.span (s : Section) : Nat :=
  max s.memorySize s.fileSize

/-- The place of an address in the file, by the first section that covers it. Sections before it
must not reach beyond the largest address. -/
def offsetIn (address : Nat) : List Section → Except Fault Nat
  | [] => .error (.malformed (.unmappedAddress address))
  | s :: ss =>
    if addressLimit ≤ s.address + s.span then
      .error (.malformed (.sectionOverflow s.address s.span))
    else if s.address ≤ address ∧ address < s.address + s.span then
      .ok (address - s.address + s.fileStart)
    else
      offsetIn address ss

/-- The place of an address in the file. -/
def fileOffset (sections : List Section) (address : Nat) : Except Fault Nat :=
  if addressLimit ≤ address then
    .error (.malformed (.addressTooLarge address))
  else
    offsetIn address sections

/-! ## The strict rule -/

/-- The size of a page of memory. -/
def pageSize : Nat := 4096

/-- The size of a block of the file. -/
def blockSize : Nat := 512

/-- The least multiple of `unit` that is not below `n`. -/
def roundUp (unit n : Nat) : Nat :=
  (n + (unit - 1)) / unit * unit

/-- The greatest multiple of `unit` that is not above `n`. -/
def roundDown (unit n : Nat) : Nat :=
  n / unit * unit

/-- Whether a number is a power of two. -/
def isPowerOfTwo (n : Nat) : Bool :=
  n != 0 && n &&& (n - 1) == 0

namespace Section

/-- The number of addresses that the loader gives to a section: its contents, from the start of
their first block up to the alignment of the file, but not more pages than its contents or its
memory take. -/
def loadedSize (alignment : Nat) (s : Section) : Nat :=
  if s.fileSize = 0 then
    0
  else
    let aligned :=
      roundUp alignment (s.fileStart + s.fileSize) - roundDown blockSize s.fileStart
    let contents := min aligned (roundUp pageSize s.fileSize)
    if s.memorySize = 0 then contents else min contents (roundUp pageSize s.memorySize)

end Section

/-- The place of an address in the file, by the first section to which the loader gives it. -/
def loadedOffset? (alignment : Nat) (sections : List Section) (address : Nat) : Option Nat :=
  (sections.find? fun s => s.address ≤ address ∧ address < s.address + s.loadedSize alignment).map
    fun s => address - s.address + s.fileStart

end TypeInventory
