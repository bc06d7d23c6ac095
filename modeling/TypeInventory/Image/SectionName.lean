set_option relaxedAutoImplicit false
set_option autoImplicit false

/-!
# Names of sections

The header of a section has room for eight characters of its name. A longer name stands in the
table of strings behind the symbols, and the header tells its place there: behind a slash in
decimal, behind two slashes in base 64.

## Main definitions

* `SectionName`, `SectionName.ofField?` — a name, and how the field of the header is read.
* `numberOf?` — the number that digits stand for.
-/

namespace TypeInventory

/-! ## Numbers -/

/-- The number that bytes stand for as digits, most significant first; nothing if one of them is no
digit. -/
def numberOf? (base : Nat) (digit? : UInt8 → Option Nat) (bytes : List UInt8) : Option Nat :=
  bytes.foldlM (fun n b => (digit? b).map (n * base + ·)) 0

/-- The value of a decimal digit. -/
def decimalDigit? (b : UInt8) : Option Nat :=
  if 0x30 ≤ b ∧ b ≤ 0x39 then some (b.toNat - 0x30) else none

/-- The value of a digit in base 64: capital letters, small letters, decimal digits, the plus sign
and the slash. -/
def base64Digit? (b : UInt8) : Option Nat :=
  if 0x41 ≤ b ∧ b ≤ 0x5A then some (b.toNat - 0x41)
  else if 0x61 ≤ b ∧ b ≤ 0x7A then some (b.toNat - 0x61 + 26)
  else if 0x30 ≤ b ∧ b ≤ 0x39 then some (b.toNat - 0x30 + 52)
  else if b = 0x2B then some 62
  else if b = 0x2F then some 63
  else none

/-- A decimal number: at least one digit, with or without a plus sign in front. -/
def decimal? : List UInt8 → Option Nat
  | [] => none
  | [b] => decimalDigit? b
  | b :: bs =>
    if b = 0x2B then numberOf? 10 decimalDigit? bs
    else numberOf? 10 decimalDigit? (b :: bs)

/-! ## Names -/

/-- How the header of a section gives its name. -/
inductive SectionName where
  /-- By its characters. -/
  | short (bytes : List UInt8)
  /-- By its place in the table of strings. -/
  | long (place : Nat)
deriving DecidableEq, Repr

namespace SectionName

/-- The number of bytes for a name in the header of a section. -/
def fieldSize : Nat := 8

/-- The name in a field of a header. The field ends with its first zero, if there is one. -/
def ofField? (field : List UInt8) : Option SectionName :=
  match field.takeWhile (· != 0) with
  | 0x2F :: 0x2F :: digits => (numberOf? 64 base64Digit? digits).map long
  | 0x2F :: digits => (decimal? digits).map long
  | bytes => some (short bytes)

end SectionName

end TypeInventory
