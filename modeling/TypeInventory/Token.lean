import TypeInventory.Text.Hex

set_option relaxedAutoImplicit false
set_option autoImplicit false

/-!
# Metadata tokens

A token is a 32-bit word that names a row of a metadata table: the high byte is the number of
the table, the low three bytes are the row, counted from one.

## Main definitions

* `Token.table`, `Token.row` — the two parts of a token.
* `Token.ofParts` — the token of a row. Rows have 24 bits here; higher bits of a row number are
  dropped.

## Main results

* `Token.row_ofParts`, `Token.table_ofParts` — what the parts of a built token are.
-/

namespace TypeInventory

/-- A metadata token: table number in the high byte, row in the low 24 bits. -/
structure Token where
  /-- The token as a 32-bit word. -/
  value : UInt32
deriving DecidableEq, Repr, Inhabited

namespace Token

/-- The number of the table that the token names. -/
def table (t : Token) : Nat :=
  t.value.toNat / 0x1000000

/-- The row that the token names, counted from one. -/
def row (t : Token) : Nat :=
  t.value.toNat % 0x1000000

/-- The token of row `row` in the table numbered `table`. Only the low eight bits of the table
number and the low 24 bits of the row number take part. -/
def ofParts (table row : Nat) : Token :=
  ⟨UInt32.ofNat (table % 0x100 * 0x1000000 + row % 0x1000000)⟩

/-- The null token is the word zero. -/
def isNull (t : Token) : Bool :=
  t.value == 0

/-- Tokens are ordered as words. -/
instance : Ord Token :=
  ⟨fun s t => compare s.value.toNat t.value.toNat⟩

/-- A token in running text: eight hexadecimal digits after `0x`. -/
def text (t : Token) : String :=
  "0x" ++ Text.hexPadded 8 t.value.toNat

/-- A token in a report: hexadecimal with capital letters and without padding. -/
def reportText (t : Token) : String :=
  "0x" ++ Text.upperHex t.value.toNat

/-- A token spelled out with its table and its row. -/
def longText (t : Token) : String :=
  "Token(" ++ t.text ++ ", table: 0x" ++ Text.hexPadded 2 t.table ++ ", row: "
    ++ toString t.row ++ ")"

instance : ToString Token :=
  ⟨text⟩

/-! ## Parts of a built token -/

theorem toNat_ofParts (table row : Nat) :
    (ofParts table row).value.toNat = table % 0x100 * 0x1000000 + row % 0x1000000 := by
  have h₁ := Nat.mod_lt table (show 0x100 > 0 by decide)
  have h₂ := Nat.mod_lt row (show 0x1000000 > 0 by decide)
  simp only [ofParts, UInt32.toNat_ofNat']
  omega

/-- A built token names the table that it was built for. -/
theorem table_ofParts (table row : Nat) : (ofParts table row).table = table % 0x100 := by
  have h₂ := Nat.mod_lt row (show 0x1000000 > 0 by decide)
  simp only [Token.table, toNat_ofParts]
  omega

/-- A built token names the row that it was built for, up to 24 bits. -/
theorem row_ofParts (table row : Nat) : (ofParts table row).row = row % 0x1000000 := by
  simp only [Token.row, toNat_ofParts]
  omega

end Token

end TypeInventory
