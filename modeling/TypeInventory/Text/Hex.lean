set_option relaxedAutoImplicit false
set_option autoImplicit false

/-!
# Hexadecimal text

Numbers are shown in base sixteen in three ways: as they are, padded with zeros to a fixed
width, and with capital letters.

## Main definitions

* `Text.hex`, `Text.hexPadded` — lower-case digits, without and with a least width.
* `Text.upperHex`, `Text.upperHexPadded` — the same with capital letters.
-/

namespace TypeInventory.Text

/-- The digits of `n` in base sixteen, most significant first and without leading zeros. -/
def hexDigits (n : Nat) : List Char :=
  Nat.toDigits 16 n

/-- Lower-case hexadecimal digits of `n`. -/
def hex (n : Nat) : String :=
  String.ofList (hexDigits n)

/-- Lower-case hexadecimal digits of `n`, filled up with zeros to at least `width` digits. -/
def hexPadded (width n : Nat) : String :=
  String.ofList ((hexDigits n).leftpad width '0')

/-- Hexadecimal digits of `n` with capital letters. -/
def upperHex (n : Nat) : String :=
  String.ofList ((hexDigits n).map Char.toUpper)

/-- Hexadecimal digits of `n` with capital letters, filled up with zeros to at least `width`
digits. -/
def upperHexPadded (width n : Nat) : String :=
  String.ofList (((hexDigits n).map Char.toUpper).leftpad width '0')

end TypeInventory.Text
