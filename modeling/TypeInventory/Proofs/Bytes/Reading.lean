import Mathlib
import TypeInventory.Bytes.Cursor

set_option relaxedAutoImplicit false
set_option autoImplicit false

/-!
# What readers of bytes read

A reader of numbers succeeds exactly when enough bytes are left, and then gives the number that
these bytes stand for. `numberAt` is that number, said without a cursor: laws about records are
stated with it, place by place.

## Main definitions

* `numberAt` — the little-endian number at a place.
* `Reader.Takes` — readers of fixed width.

## Main results

* `Reader.run_word_of_le`, `Reader.run_word_of_lt` — reading a number, with and without enough
  bytes.
* `Reader.takes_bind` — readers of fixed width in a row.
* `numberAt_lt` — a number in `width` bytes has at most `8 * width` bits.
* `numberAt_extract` — a number in a part of the data is the number at the same bytes of the whole.
-/

namespace TypeInventory

/-! ## Numbers at places -/

/-- The number that the `width` bytes from `start` on stand for. Bytes past the end do not
count. -/
def numberAt (data : ByteArray) (start width : ℕ) : ℕ :=
  littleEndian (data.extract start (start + width)).data.toList

/-- A number in `width` bytes has at most `8 * width` bits. -/
lemma numberAt_lt (data : ByteArray) (start width : ℕ) :
    numberAt data start width < 2 ^ (8 * width) := by
  have hlt := littleEndian_lt (data.extract start (start + width)).data.toList
  have hlen : (data.extract start (start + width)).data.toList.length ≤ width := by
    rw [Array.length_toList, ByteArray.size_data, ByteArray.size_extract]
    omega
  rw [Nat.one_shiftLeft] at hlt
  exact Nat.lt_of_lt_of_le hlt (Nat.pow_le_pow_right (by decide) (by omega))

/-- A number in a part of the data is the number at the same bytes of the whole. -/
lemma numberAt_extract {data : ByteArray} {first stop start width : ℕ}
    (h : first + start + width ≤ stop) :
    numberAt (data.extract first stop) start width = numberAt data (first + start) width := by
  unfold numberAt
  rw [ByteArray.extract_extract, Nat.min_eq_left (by omega), Nat.add_assoc]

/-- A number in one byte is that byte. -/
lemma numberAt_one {data : ByteArray} {place : ℕ} (h : place < data.size) :
    numberAt data place 1 = data[place].toNat := by
  have hone : (data.extract place (place + 1)).data.toList = [data[place]] := by
    rw [ByteArray.extract_add_one (by omega)]
    simp
  rw [numberAt, hone]
  simp [littleEndian]

/-! ## One reader after another -/

section Sequence

variable {ε σ α β : Type}

/-- Two readers in a row succeed when the first does and the second does behind it. -/
lemma run_bind_eq_ok_iff {x : EStateM ε σ α} {f : α → EStateM ε σ β} {c c' : σ} {b : β} :
    (x >>= f).run c = .ok b c' ↔ ∃ a c₁, x.run c = .ok a c₁ ∧ (f a).run c₁ = .ok b c' := by
  rw [EStateM.run_bind]
  constructor
  · intro h
    cases hx : x.run c with
    | ok a c₁ =>
      rw [hx] at h
      exact ⟨a, c₁, rfl, h⟩
    | error e c₁ =>
      rw [hx] at h
      cases h
  · rintro ⟨a, c₁, hx, hf⟩
    rw [hx]
    exact hf

/-- Two readers in a row fail when the first does or the second does behind it. -/
lemma run_bind_eq_error {x : EStateM ε σ α} {f : α → EStateM ε σ β} {c c' : σ} {e : ε}
    (h : (x >>= f).run c = .error e c') :
    x.run c = .error e c' ∨ ∃ a c₁, x.run c = .ok a c₁ ∧ (f a).run c₁ = .error e c' := by
  rw [EStateM.run_bind] at h
  cases hx : x.run c with
  | ok a c₁ =>
    rw [hx] at h
    exact .inr ⟨a, c₁, rfl, h⟩
  | error e₁ c₁ =>
    rw [hx] at h
    cases h
    exact .inl rfl

end Sequence

/-! ## What readers give -/

namespace Reader

variable {α β : Type}

/-- What a reader gave, without its cursor. -/
def outcome : EStateM.Result Fault Cursor α → Except Fault α
  | .ok a _ => .ok a
  | .error e _ => .error e

/-- Running a reader over all bytes gives what it gives from their start. -/
lemma runOn_eq_outcome (r : Reader α) (data : ByteArray) :
    r.runOn data = outcome (r.run ⟨data, 0⟩) := by
  unfold runOn Cursor.ofBytes
  cases r.run ⟨data, 0⟩ <;> rfl

/-! ## Reading numbers -/

/-- Reading a byte, as a condition on where the cursor is. -/
lemma run_byte_eq_dite (c : Cursor) :
    byte.run c =
      if h : c.pos < c.data.size then .ok c.data[c.pos] ⟨c.data, c.pos + 1⟩
      else .error .outOfBounds c :=
  rfl

/-- Looking at a byte, as a condition on where the cursor is. -/
lemma run_peek_eq_dite (c : Cursor) :
    peek.run c = if h : c.pos < c.data.size then .ok c.data[c.pos] c else .error .outOfBounds c :=
  rfl

/-- Passing over bytes, as a condition on the bytes that are left. -/
lemma run_skip_eq_ite (n : ℕ) (c : Cursor) :
    (skip n).run c =
      if n ≤ c.remaining then .ok () ⟨c.data, c.pos + n⟩ else .error .outOfBounds c :=
  rfl

/-- Reading bytes, as a condition on the bytes that are left. -/
lemma run_bytes (n : ℕ) (c : Cursor) :
    (bytes n).run c =
      if c.pos + n ≤ c.data.size then
        .ok (c.data.extract c.pos (c.pos + n)) ⟨c.data, c.pos + n⟩
      else .error .outOfBounds c :=
  rfl

/-- With enough bytes left, reading a number gives the number at the cursor and moves behind it. -/
lemma run_word_of_le {width : ℕ} {c : Cursor} (h : c.pos + width ≤ c.data.size) :
    (word width).run c = .ok (numberAt c.data c.pos width) ⟨c.data, c.pos + width⟩ := by
  rw [word, EStateM.run_bind, run_bytes, if_pos h]
  rfl

/-- Without enough bytes left, reading a number fails and does not move. -/
lemma run_word_of_lt {width : ℕ} {c : Cursor} (h : c.data.size < c.pos + width) :
    (word width).run c = .error .outOfBounds c := by
  rw [word, EStateM.run_bind, run_bytes, if_neg (Nat.not_le.mpr h)]

/-- Reading a number succeeds exactly when enough bytes are left. -/
lemma run_word_eq_ok_iff {width n : ℕ} {c c' : Cursor} :
    (word width).run c = .ok n c' ↔
      c.pos + width ≤ c.data.size ∧ n = numberAt c.data c.pos width ∧
      c' = ⟨c.data, c.pos + width⟩ := by
  by_cases h : c.pos + width ≤ c.data.size
  · rw [run_word_of_le h, EStateM.Result.ok.injEq]
    constructor
    · rintro ⟨rfl, rfl⟩
      exact ⟨h, rfl, rfl⟩
    · rintro ⟨-, rfl, rfl⟩
      exact ⟨rfl, rfl⟩
  · rw [run_word_of_lt (Nat.not_le.mp h)]
    simp [h]

/-- A number that cannot be read is out of bounds. -/
lemma run_word_eq_error {width : ℕ} {c c' : Cursor} {e : Fault}
    (h : (word width).run c = .error e c') : e = .outOfBounds := by
  by_cases hle : c.pos + width ≤ c.data.size
  · rw [run_word_of_le hle] at h
    cases h
  · rw [run_word_of_lt (Nat.not_le.mp hle)] at h
    cases h
    rfl

/-! ## Readers of fixed width -/

/-- A reader of fixed width: it takes `width` bytes and gives what `value` says about their place,
and is out of bounds when they are not there. -/
def Takes (r : Reader α) (width : ℕ) (value : ByteArray → ℕ → α) : Prop :=
  ∀ data pos, pos ≤ data.size →
    (pos + width ≤ data.size →
      r.run ⟨data, pos⟩ = .ok (value data pos) ⟨data, pos + width⟩) ∧
    (data.size < pos + width → ∃ c, r.run ⟨data, pos⟩ = .error .outOfBounds c)

/-- A value takes no bytes. -/
lemma takes_pure (a : α) : (pure a : Reader α).Takes 0 fun _ _ => a := by
  intro data pos hpos
  exact ⟨fun _ => rfl, fun hlt => absurd hlt (Nat.not_lt.mpr hpos)⟩

/-- A number takes as many bytes as it is wide. -/
lemma takes_word (width : ℕ) :
    (word width).Takes width fun data pos => numberAt data pos width := by
  intro data pos _
  exact ⟨fun hle => run_word_of_le hle, fun hlt => ⟨_, run_word_of_lt hlt⟩⟩

/-- Bytes that are passed over are taken. -/
lemma takes_skip (width : ℕ) : (skip width).Takes width fun _ _ => () := by
  intro data pos hpos
  refine ⟨fun hle => if_pos ?_, fun hlt => ⟨_, if_neg ?_⟩⟩
  · change width ≤ data.size - pos
    omega
  · change ¬width ≤ data.size - pos
    omega

/-- Two readers in a row take the bytes of both, the second behind those of the first. -/
lemma takes_bind {x : Reader α} {f : α → Reader β} {n m : ℕ} {v : ByteArray → ℕ → α}
    {w : α → ByteArray → ℕ → β} (hx : x.Takes n v) (hf : ∀ a, (f a).Takes m (w a)) :
    (x >>= f).Takes (n + m) fun data pos => w (v data pos) data (pos + n) := by
  intro data pos hpos
  obtain ⟨hfirst, hfirst'⟩ := hx data pos hpos
  rw [EStateM.run_bind]
  by_cases hle : pos + n ≤ data.size
  · obtain ⟨hsecond, hsecond'⟩ := hf (v data pos) data (pos + n) hle
    rw [hfirst hle, ← Nat.add_assoc]
    exact ⟨hsecond, hsecond'⟩
  · obtain ⟨c, hrun⟩ := hfirst' (Nat.not_le.mp hle)
    rw [hrun]
    exact ⟨fun hboth => absurd hboth (by omega), fun _ => ⟨c, rfl⟩⟩

end Reader

end TypeInventory
