import TypeInventory.Bytes.Compressed

set_option relaxedAutoImplicit false
set_option autoImplicit false

/-!
# Heaps

Names and signatures lie in heaps, and rows refer to them by their place. A string is UTF-8 and
ends with a zero; a place within a string gives the rest of it. A blob is a byte sequence after
its length. Both heaps start with an empty entry, a single zero.

## Main definitions

* `StringHeap`, `StringHeap.get` — strings by place.
* `BlobHeap`, `BlobHeap.get` — blobs by place.
-/

namespace TypeInventory

/-- The heap with nothing but the empty entry. -/
def emptyHeap : ByteArray :=
  ⟨#[0]⟩

/-- Whether the bytes of a heap start with the empty entry. -/
def startsWithZero (data : ByteArray) : Bool :=
  data[0]? == some 0

/-! ## Strings -/

/-- The heap of strings. -/
structure StringHeap where
  /-- Its bytes. -/
  data : ByteArray

namespace StringHeap

/-- The heap with the given bytes. -/
def ofBytes (data : ByteArray) : Except Fault StringHeap :=
  if startsWithZero data then .ok ⟨data⟩ else .error (.malformed .emptyStringHeap)

/-- The place of the first zero among the `n` bytes from `i` on. -/
def zeroFrom? (data : ByteArray) : Nat → Nat → Option Nat
  | 0, _ => none
  | n + 1, i => if data[i]? = some 0 then some i else zeroFrom? data n (i + 1)

/-- The string at place `index`. -/
def get (heap : StringHeap) (index : Nat) : Except Fault String :=
  if index < heap.data.size then
    match zeroFrom? heap.data (heap.data.size - index) index with
    | some stop =>
      match String.fromUTF8? (heap.data.extract index stop) with
      | some s => .ok s
      | none => .error (.malformed (.unreadableString index))
    | none => .error (.malformed (.unreadableString index))
  else
    .error .outOfBounds

end StringHeap

/-! ## Blobs -/

/-- The heap of blobs. -/
structure BlobHeap where
  /-- Its bytes. -/
  data : ByteArray

namespace BlobHeap

/-- The heap with the given bytes. -/
def ofBytes (data : ByteArray) : Except Fault BlobHeap :=
  if startsWithZero data then .ok ⟨data⟩ else .error (.malformed .emptyBlobHeap)

/-- A blob: its length as a compressed integer, then its bytes. -/
def blob : Reader ByteArray := do
  let length ← Reader.compressed
  Reader.bytes length

/-- The blob at place `index`. -/
def get (heap : BlobHeap) (index : Nat) : Except Fault ByteArray :=
  match blob.run ⟨heap.data, index⟩ with
  | .ok b _ => .ok b
  | .error e _ => .error e

end BlobHeap

end TypeInventory
