import TypeInventory.Bytes.Cursor

set_option relaxedAutoImplicit false
set_option autoImplicit false

/-!
# Compressed integers

Blobs hold unsigned integers below `2 ^ 29` in one, two or four bytes. The high bits of the
first byte announce the width; the remaining bits are the number, most significant byte first:

| first byte | width | bits of the number |
|---|---|---|
| `0xxxxxxx` | 1 | 7 |
| `10xxxxxx` | 2 | 14 |
| `110xxxxx` | 4 | 29 |

Numbers need not be written in the least width.

## Main definitions

* `Reader.compressed` — the next compressed integer.
* `compressedBytes` — the shortest form of a number.
-/

namespace TypeInventory

/-- The shortest form of a number below `2 ^ 29`. -/
def compressedBytes (n : Nat) : List UInt8 :=
  if n < 0x80 then
    [UInt8.ofNat n]
  else if n < 0x4000 then
    [UInt8.ofNat (0x80 + n / 0x100), UInt8.ofNat n]
  else
    [UInt8.ofNat (0xC0 + n / 0x1000000), UInt8.ofNat (n / 0x10000), UInt8.ofNat (n / 0x100),
      UInt8.ofNat n]

namespace Reader

/-- The next compressed integer. A first byte that announces no width is an error of the
format; when the bytes end early, those that were there have been read. -/
def compressed : Reader Nat := do
  let lead ← byte
  let first := lead.toNat
  if first < 0x80 then
    return first
  else if first < 0xC0 then
    let second ← byte
    return (first - 0x80) * 0x100 + second.toNat
  else if first < 0xE0 then
    let second ← byte
    let third ← byte
    let fourth ← byte
    return (first - 0xC0) * 0x1000000 + second.toNat * 0x10000 + third.toNat * 0x100 + fourth.toNat
  else
    throw (.malformed (.compressedLead lead))

end Reader

end TypeInventory
