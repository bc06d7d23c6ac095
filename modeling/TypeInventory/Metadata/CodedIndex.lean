import TypeInventory.Bytes.Compressed
import TypeInventory.Metadata.Table

set_option relaxedAutoImplicit false
set_option autoImplicit false

/-!
# References to rows

A row of a given table is named by a token. A coded index is a number whose low bits, the tag,
select a table and whose other bits are the row; row zero refers to nothing.

## Main definitions

* `TableId.token` — the token of a row.
* `CodedIndex`, `CodedIndex.decode?` — the table and row that a number stands for.
* `Reader.compressedToken` — the next token of a type in a blob.

## Main results

* `CodedIndex.decode?_add` — a number is decoded by its tag and its row.
-/

namespace TypeInventory

/-- The token of row `row` of a table. -/
def TableId.token (t : TableId) (row : Nat) : Token :=
  Token.ofParts t.number row

/-- A row of one of several tables. -/
structure CodedIndex where
  /-- The table that the tag selects. -/
  table : TableId
  /-- The row in that table; zero refers to nothing. -/
  row : Nat
deriving DecidableEq, Repr, Inhabited

namespace CodedIndex

/-- The token of the row. -/
def token (i : CodedIndex) : Token :=
  i.table.token i.row

/-- Whether the index refers to nothing. -/
def isNull (i : CodedIndex) : Bool :=
  i.row == 0

/-- The table and row that a number stands for, unless its tag selects no table. -/
def decode? (kind : CodedKind) (value : Nat) : Option CodedIndex :=
  (kind.tables[value % (1 <<< kind.tagBits)]?).map fun table => ⟨table, value >>> kind.tagBits⟩

/-- A number that is put together from a row and a tag is decoded as them. -/
theorem decode?_add (kind : CodedKind) (row tag : Nat) (h : tag < 1 <<< kind.tagBits) :
    decode? kind (row <<< kind.tagBits + tag)
      = (kind.tables[tag]?).map fun table => ⟨table, row⟩ := by
  rw [Nat.one_shiftLeft] at h
  have h₁ : (row <<< kind.tagBits + tag) % (1 <<< kind.tagBits) = tag := by
    rw [Nat.one_shiftLeft, Nat.shiftLeft_eq, Nat.mul_comm, Nat.mul_add_mod, Nat.mod_eq_of_lt h]
  have h₂ : (row <<< kind.tagBits + tag) >>> kind.tagBits = row := by
    rw [Nat.shiftRight_eq_div_pow, Nat.shiftLeft_eq, Nat.mul_comm,
      Nat.mul_add_div (Nat.two_pow_pos _), Nat.div_eq_of_lt h, Nat.add_zero]
  rw [decode?, h₁, h₂]

end CodedIndex

/-- The next token of a type definition, reference or specification: a compressed integer that
is decoded as a coded index. -/
def Reader.compressedToken : Reader Token := do
  let value ← Reader.compressed
  match CodedIndex.decode? .typeDefOrRef value with
  | some i => return i.token
  | none => throw (.malformed (.compressedToken value))

end TypeInventory
