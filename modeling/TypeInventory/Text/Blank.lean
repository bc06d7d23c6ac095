set_option relaxedAutoImplicit false
set_option autoImplicit false

/-!
# Blank text

A text is blank when it holds nothing but white space. White space is the property
`White_Space` of Unicode, 25 characters; it has not changed since version 6.3.

## Main definitions

* `Text.isSpace` — whether a character is white space.
* `Text.isBlank` — whether all characters of a text are.
-/

namespace TypeInventory.Text

/-- The closed ranges of code points that are white space, ascending and apart. -/
def spaceRanges : List (Nat × Nat) :=
  [(0x09, 0x0D), (0x20, 0x20), (0x85, 0x85), (0xA0, 0xA0), (0x1680, 0x1680),
    (0x2000, 0x200A), (0x2028, 0x2029), (0x202F, 0x202F), (0x205F, 0x205F), (0x3000, 0x3000)]

/-- Whether a character is white space. -/
def isSpace (c : Char) : Bool :=
  spaceRanges.any fun r => r.1 ≤ c.toNat && c.toNat ≤ r.2

/-- Whether a text holds nothing but white space. The empty text is blank. -/
def isBlank (s : String) : Bool :=
  s.toList.all isSpace

end TypeInventory.Text
