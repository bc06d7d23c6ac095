import TypeInventory.Bytes.Cursor

set_option relaxedAutoImplicit false
set_option autoImplicit false

/-!
# The record of a build

Between its first header and the image headers an image may have a record of the tools that built
it. The record starts with the word `DanS`, masked by a key, and ends with the word `Rich` and the
key.

The check of the record restates the one of the reader of images on which loading relies. It can
only make an image be refused, and no theorem depends on it.

## Main definitions

* `checkBuildRecord` — whether the record, if there is one, has a start and whole entries.
-/

namespace TypeInventory

/-- The word that the record of a build starts with. -/
def recordStartMark : Nat := 0x536E6144

/-- The word that the record of a build ends with. -/
def recordEndMark : Nat := 0x68636952

/-- The number in the four bytes from a place on. -/
def fourBytesAt (data : ByteArray) (place : Nat) : Nat :=
  littleEndian (data.extract place (place + 4)).data.toList

/-- The first of `n` places from `start` on that has a property. -/
def firstPlace? (p : Nat → Bool) : Nat → Nat → Option Nat
  | 0, _ => none
  | n + 1, start => if p start then some start else firstPlace? p n (start + 1)

/-- Checks the record between two places of an image, if there is one: its start must be found, and
its entries must be whole. -/
def checkBuildRecord (data : ByteArray) (start stop : Nat) : Except Fault Unit := do
  let isEnd (place : Nat) : Bool := fourBytesAt data place == recordEndMark
  match firstPlace? isEnd (stop - start - 7) start with
  | none => return
  | some recordEnd =>
    let key := fourBytesAt data (recordEnd + 4)
    let isStart (place : Nat) : Bool := fourBytesAt data place ^^^ key == recordStartMark
    match firstPlace? isStart (stop - start - 3) start with
    | none => throw (.image .buildRecord)
    | some recordStart =>
      if recordEnd ≤ recordStart + 4 ∨ (recordEnd - recordStart) % 4 ≠ 0 then
        throw (.image .buildRecord)

end TypeInventory
