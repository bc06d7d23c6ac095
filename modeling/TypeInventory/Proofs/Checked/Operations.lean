import TypeInventory.Proofs.Bytes.Reading

set_option relaxedAutoImplicit false
set_option autoImplicit false

/-!
# Operations that may leave their range

On a machine, sums and products have a fixed number of bits, and a part of a byte sequence has to
lie within it. An operation that leaves its range has no value there. A program is *checked* when it
asks of each such operation whether it is in range, and has no value either as soon as one is not. A
checked program that has a value for all inputs never leaves a range.

Checked programs that may also fail with a fault are values of `ExceptT Fault Option`: the outer
`none` is an operation out of range, and a fault is a result like any other.

## Main definitions

* `Checked.add`, `Checked.sub`, `Checked.mul`, `Checked.part`, `Checked.byteAt` — the operations.
* `Checked.plain` — a result that takes no operation.
* `Checked.word` — the number at a place of the data.

## Main results

* `Checked.add_of_lt`, `Checked.sub_of_le`, `Checked.mul_of_lt`, `Checked.part_of_le` — operations in
  range.
* `Checked.plain_bind` — one checked step after another.
* `Checked.word_of_le` — reading a number that is there.
-/

namespace TypeInventory

namespace Checked

variable {α β : Type}

/-! ## Operations -/

/-- The sum of two numbers in a word of the given number of bits. -/
def add (bits a b : ℕ) : Option ℕ :=
  if a + b < 2 ^ bits then some (a + b) else none

/-- The difference of two numbers, of which the second must not be the greater one. -/
def sub (a b : ℕ) : Option ℕ :=
  if b ≤ a then some (a - b) else none

/-- The product of two numbers in a word of the given number of bits. -/
def mul (bits a b : ℕ) : Option ℕ :=
  if a * b < 2 ^ bits then some (a * b) else none

/-- The bytes from `first` on and before `stop`. -/
def part (data : ByteArray) (first stop : ℕ) : Option ByteArray :=
  if first ≤ stop ∧ stop ≤ data.size then some (data.extract first stop) else none

/-- The byte at a place. -/
def byteAt (data : ByteArray) (place : ℕ) : Option UInt8 :=
  data[place]?

/-- A sum that fits has its value. -/
lemma add_of_lt {bits a b : ℕ} (h : a + b < 2 ^ bits) : add bits a b = some (a + b) :=
  if_pos h

/-- A difference that is not negative has its value. -/
lemma sub_of_le {a b : ℕ} (h : b ≤ a) : sub a b = some (a - b) :=
  if_pos h

/-- A product that fits has its value. -/
lemma mul_of_lt {bits a b : ℕ} (h : a * b < 2 ^ bits) : mul bits a b = some (a * b) :=
  if_pos h

/-- A part that lies within the data is there. -/
lemma part_of_le {data : ByteArray} {first stop : ℕ} (h : first ≤ stop) (h' : stop ≤ data.size) :
    part data first stop = some (data.extract first stop) :=
  if_pos ⟨h, h'⟩

/-- A byte within the data is there. -/
lemma byteAt_of_lt {data : ByteArray} {place : ℕ} (h : place < data.size) :
    byteAt data place = some data[place] :=
  getElem?_pos data place h

/-! ## Programs -/

/-- A result that takes no operation. -/
def plain (x : Except Fault α) : ExceptT Fault Option α :=
  ExceptT.mk (some x)

/-- An operation in range goes on with its value. -/
lemma some_bind (a : α) (f : α → ExceptT Fault Option β) :
    (liftM (some a) : ExceptT Fault Option α) >>= f = f a :=
  rfl

/-- A value that takes no operation is handed to the next step. -/
lemma plain_ok_bind (a : α) (f : α → ExceptT Fault Option β) : plain (.ok a) >>= f = f a :=
  rfl

/-- One step after another takes no operation out of range, if no step does. -/
lemma plain_bind {x : Except Fault α} {f : α → ExceptT Fault Option β} {g : α → Except Fault β}
    (h : ∀ a, x = .ok a → f a = plain (g a)) : plain x >>= f = plain (x >>= g) := by
  cases x with
  | ok a =>
    rw [plain_ok_bind, h a rfl]
    rfl
  | error e => rfl

/-! ## Numbers in the data -/

/-- The number in the `width` bytes from `place` on. It is a fault if they are not there. -/
def word (data : ByteArray) (place width : ℕ) : ExceptT Fault Option ℕ := do
  if data.size < place + width then
    throw .outOfBounds
  else
    let bytes ← part data place (place + width)
    return littleEndian bytes.data.toList

/-- A number that is there is read. -/
lemma word_of_le {data : ByteArray} {place width : ℕ} (h : place + width ≤ data.size) :
    word data place width = plain (.ok (numberAt data place width)) := by
  rw [word, if_neg (Nat.not_lt.mpr h), part_of_le (by omega) h]
  rfl

/-- A number at the start of what is left from a place on is the number at this place. -/
lemma word_extract_of_le {data : ByteArray} {place width : ℕ} (h : place + width ≤ data.size) :
    word (data.extract place data.size) 0 width = plain (.ok (numberAt data place width)) := by
  rw [word_of_le (by rw [ByteArray.size_extract]; omega), numberAt_extract (by omega),
    Nat.add_zero]

end Checked

end TypeInventory
