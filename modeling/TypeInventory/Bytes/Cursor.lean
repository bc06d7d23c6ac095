import TypeInventory.Fault

set_option relaxedAutoImplicit false
set_option autoImplicit false

/-!
# Reading bytes in order

A cursor is a byte sequence with a position in it. Readers move the cursor forward; a reader
that fails leaves the cursor where the failing read started, unless it says otherwise.

Numbers in metadata are little-endian: the first byte weighs least.

## Main definitions

* `Cursor` — bytes and a position; `Cursor.rest` is the list of bytes not yet read.
* `Reader` — a computation that moves a cursor and may fail, keeping the cursor when it does.
* `Reader.bytes`, `Reader.word`, `Reader.signedWord` — the next bytes, as they are, as a number
  and as a two's-complement number.
* `littleEndian`, `littleEndianBytes` — the number that bytes stand for, and back.
* `collect`, `collectWhile` — the results of a computation that is run several times.

## Main results

* `collect_succ`, `collectWhile_succ` — a run is its first step followed by a shorter run.
* `littleEndian_lt` — `n` bytes stand for a number of at most `8 * n` bits.
* `littleEndian_littleEndianBytes` — writing a number and reading it gives it back.
-/

namespace TypeInventory

/-! ## Little-endian numbers -/

/-- The number whose base-256 digits are the given bytes, least significant first. -/
def littleEndian : List UInt8 → Nat
  | [] => 0
  | b :: bs => b.toNat + 256 * littleEndian bs

/-- The first `width` base-256 digits of `n`, least significant first. -/
def littleEndianBytes : Nat → Nat → List UInt8
  | 0, _ => []
  | width + 1, n => UInt8.ofNat n :: littleEndianBytes width (n / 256)

/-- One more byte makes room for 256 times as many numbers. -/
theorem one_shiftLeft_bytes (n : Nat) : 1 <<< (8 * (n + 1)) = 256 * 1 <<< (8 * n) := by
  rw [Nat.mul_succ, Nat.shiftLeft_add, Nat.shiftLeft_eq, Nat.mul_comm]

theorem littleEndian_lt (bs : List UInt8) : littleEndian bs < 1 <<< (8 * bs.length) := by
  induction bs with
  | nil => simp [littleEndian]
  | cons b bs ih =>
    have hb : b.toNat < 256 := b.toNat_lt
    rw [littleEndian, List.length_cons, one_shiftLeft_bytes]
    omega

theorem length_littleEndianBytes (width n : Nat) :
    (littleEndianBytes width n).length = width := by
  induction width generalizing n with
  | zero => rfl
  | succ width ih => simp [littleEndianBytes, ih]

theorem littleEndian_littleEndianBytes (width n : Nat) :
    littleEndian (littleEndianBytes width n) = n % (1 <<< (8 * width)) := by
  induction width generalizing n with
  | zero => simp [littleEndianBytes, littleEndian, Nat.mod_one]
  | succ width ih =>
    have h : (UInt8.ofNat n).toNat = n % 256 := UInt8.toNat_ofNat'
    rw [littleEndianBytes, littleEndian, ih, h, one_shiftLeft_bytes, Nat.mod_mul]

/-! ## Repetition -/

section Repetition

variable {ε σ α : Type}

/-- Runs `step` at most `n` times, until it gives nothing, and puts what it gives behind the
values `done`, the last one of which comes first. -/
def collectInto (step : EStateM ε σ (Option α)) : Nat → List α → EStateM ε σ (List α)
  | 0, done => pure done.reverse
  | n + 1, done => do
    match ← step with
    | some a => collectInto step n (a :: done)
    | none => return done.reverse

/-- Runs `step` at most `n` times, until it gives nothing; what it gave, in order. -/
def collectWhile (step : EStateM ε σ (Option α)) (n : Nat) : EStateM ε σ (List α) :=
  collectInto step n []

/-- Runs `step` exactly `n` times; what it gave, in order. -/
def collect (step : EStateM ε σ α) (n : Nat) : EStateM ε σ (List α) :=
  collectWhile (some <$> step) n

theorem collectInto_eq (step : EStateM ε σ (Option α)) (n : Nat) (done : List α) :
    collectInto step n done = (done.reverse ++ ·) <$> collectWhile step n := by
  induction n generalizing done with
  | zero => simp [collectInto, collectWhile]
  | succ n ih =>
    simp only [collectWhile, collectInto, map_bind]
    congr 1
    funext o
    cases o with
    | none => simp
    | some a =>
      simp only
      rw [ih (a :: done), ih [a]]
      simp [Functor.map_map]

theorem collectWhile_succ (step : EStateM ε σ (Option α)) (n : Nat) :
    collectWhile step (n + 1) = (do
      match ← step with
      | some a => (a :: ·) <$> collectWhile step n
      | none => return []) := by
  simp only [collectWhile, collectInto]
  congr 1
  funext o
  cases o with
  | none => simp
  | some a => simp [collectInto_eq step n [a], collectWhile]

theorem collect_succ (step : EStateM ε σ α) (n : Nat) :
    collect step (n + 1) = (do
      let a ← step
      (a :: ·) <$> collect step n) := by
  rw [collect, collectWhile_succ]
  simp [collect]

end Repetition

/-! ## Cursors -/

/-- A byte sequence and a position in it. -/
structure Cursor where
  /-- All bytes, read and unread. -/
  data : ByteArray
  /-- How many bytes lie before the cursor. -/
  pos : Nat

namespace Cursor

/-- The cursor in front of the first byte. -/
def ofBytes (data : ByteArray) : Cursor :=
  ⟨data, 0⟩

/-- The number of bytes not yet read. -/
def remaining (c : Cursor) : Nat :=
  c.data.size - c.pos

/-- Whether there are bytes not yet read. -/
def hasMore (c : Cursor) : Bool :=
  c.pos < c.data.size

/-- The bytes not yet read. -/
def rest (c : Cursor) : List UInt8 :=
  c.data.data.toList.drop c.pos

end Cursor

/-- A computation that moves a cursor and may fail. The cursor is kept when it fails. -/
abbrev Reader (α : Type) : Type :=
  EStateM Fault Cursor α

namespace Reader

/-- Runs a reader over a byte sequence from its start and gives the result alone. -/
def runOn {α : Type} (r : Reader α) (data : ByteArray) : Except Fault α :=
  match r.run (Cursor.ofBytes data) with
  | .ok a _ => .ok a
  | .error e _ => .error e

/-- The next `n` bytes. Fails without moving if fewer are left. -/
def bytes (n : Nat) : Reader ByteArray := fun c =>
  if c.pos + n ≤ c.data.size then
    .ok (c.data.extract c.pos (c.pos + n)) { c with pos := c.pos + n }
  else
    .error .outOfBounds c

/-- The next byte. -/
def byte : Reader UInt8 := fun c =>
  if h : c.pos < c.data.size then
    .ok c.data[c.pos] { c with pos := c.pos + 1 }
  else
    .error .outOfBounds c

/-- The next byte, which stays unread. -/
def peek : Reader UInt8 := fun c =>
  if h : c.pos < c.data.size then .ok c.data[c.pos] c else .error .outOfBounds c

/-- Passes over `n` bytes. -/
def skip (n : Nat) : Reader Unit := fun c =>
  if n ≤ c.remaining then .ok () { c with pos := c.pos + n } else .error .outOfBounds c

/-- The next `width` bytes as a little-endian number. -/
def word (width : Nat) : Reader Nat := do
  let bs ← bytes width
  return littleEndian bs.data.toList

/-- The next `width` bytes as a little-endian number in two's complement. -/
def signedWord (width : Nat) : Reader Int := do
  let n ← word width
  return Int.bmod n (1 <<< (8 * width))

end Reader

end TypeInventory
