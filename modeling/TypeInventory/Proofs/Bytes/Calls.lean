import TypeInventory.Metadata.CodedIndex
import TypeInventory.Proofs.Bytes.Locality

set_option relaxedAutoImplicit false
set_option autoImplicit false

/-!
# Calls on one cursor

Numbers, compressed integers and tokens are read through one cursor, one call after another, and
calls go on behind calls that failed. Whatever is called, the cursor stays in its data and never
moves back. A call that fails leaves it in place, except that a compressed integer which is cut off
or stands for nothing has been passed over as far as it was there. A number that is read is that of
exactly the bytes that were passed over.

## Main definitions

* `Cursor.Ahead` — a cursor a bounded number of bytes ahead of another one.
* `Reader.Moves` — readers that move the cursor ahead, whether they succeed or fail.
* `CursorCall`, `Cursor.after` — a call, and the cursor behind calls in a row.
* `twosComplement` — the number that bytes stand for in two's complement.

## Main results

* `Reader.moves_bind` — readers in a row.
* `CursorCall.moves` — every call moves the cursor ahead.
* `Cursor.ahead_after` — so do calls in a row.
* `Cursor.calls_in_order` — where the cursor is behind any calls, and what the next call does.
-/

namespace TypeInventory

/-! ## Moving ahead -/

/-- The second cursor is at most `n` bytes ahead of the first one, in the same data, and it is not
past their end unless the first one is. -/
structure Cursor.Ahead (c c' : Cursor) (n : ℕ) : Prop where
  /-- The bytes stay as they are. -/
  data : c'.data = c.data
  /-- The cursor does not move back. -/
  forward : c.pos ≤ c'.pos
  /-- The cursor does not move further than this. -/
  near : c'.pos ≤ c.pos + n
  /-- The cursor does not leave the data. -/
  inside : c.pos ≤ c.data.size → c'.pos ≤ c.data.size

namespace Cursor.Ahead

variable {c c' c'' : Cursor} {m n : ℕ}

lemma refl (c : Cursor) : c.Ahead c 0 :=
  ⟨rfl, Nat.le_refl _, Nat.le_refl _, fun h => h⟩

lemma trans (h : c.Ahead c' m) (h' : c'.Ahead c'' n) : c.Ahead c'' (m + n) := by
  have hnear := h.near
  have hnear' := h'.near
  have hinside' := h'.inside
  rw [h.data] at hinside'
  exact ⟨h'.data.trans h.data, h.forward.trans h'.forward, by omega,
    fun hpos => hinside' (h.inside hpos)⟩

/-- A cursor that is not far ahead is not further ahead. -/
lemma of_le (h : c.Ahead c' m) (hle : m ≤ n) : c.Ahead c' n := by
  have hnear := h.near
  exact ⟨h.data, h.forward, by omega, h.inside⟩

/-- A cursor that is no bytes ahead is the same one. -/
lemma eq_of_zero (h : c.Ahead c' 0) : c' = c := by
  have hpos : c'.pos = c.pos := Nat.le_antisymm h.near h.forward
  rw [Cursor.mk.injEq]
  exact ⟨h.data, hpos⟩

end Cursor.Ahead

namespace Reader

variable {α β : Type} {r : Reader α} {taken lost : ℕ}

/-- A reader that moves the cursor ahead: by at most `taken` bytes when it succeeds, and by at most
`lost` bytes when it fails. -/
def Moves (r : Reader α) (taken lost : ℕ) : Prop :=
  ∀ c, match r.run c with
    | .ok _ c' => c.Ahead c' taken
    | .error _ c' => c.Ahead c' lost

/-- A failing reader passes over few bytes. -/
lemma Moves.ahead_of_error {c c' : Cursor} {e : Fault} (h : r.Moves taken lost)
    (hrun : r.run c = .error e c') : c.Ahead c' lost := by
  have hmove := h c
  rwa [hrun] at hmove

/-- Whether it succeeds or fails, the reader leaves the cursor further on. -/
lemma Moves.ahead_left (h : r.Moves taken lost) (c : Cursor) :
    c.Ahead (left (r.run c)) (max taken lost) := by
  have hmove := h c
  cases hrun : r.run c with
  | ok a c' =>
    rw [hrun] at hmove
    exact hmove.of_le (Nat.le_max_left _ _)
  | error e c' =>
    rw [hrun] at hmove
    exact hmove.of_le (Nat.le_max_right _ _)

/-- A reader may move less than it is allowed to. -/
lemma Moves.of_le {taken' lost' : ℕ} (h : r.Moves taken lost) (htaken : taken ≤ taken')
    (hlost : lost ≤ lost') : r.Moves taken' lost' := by
  intro c
  have hmove := h c
  cases hrun : r.run c with
  | ok a c' =>
    rw [hrun] at hmove
    exact hmove.of_le htaken
  | error e c' =>
    rw [hrun] at hmove
    exact hmove.of_le hlost

/-- A value without reading. -/
lemma moves_pure (a : α) : (pure a : Reader α).Moves 0 0 :=
  Cursor.Ahead.refl

/-- A failure without reading. -/
lemma moves_throw (e : Fault) : (throw e : Reader α).Moves 0 0 :=
  Cursor.Ahead.refl

/-- **Readers in a row.** When the second one fails, the bytes of the first one are lost as well. -/
lemma moves_bind {x : Reader α} {f : α → Reader β} {m n k l : ℕ} (hx : x.Moves m k)
    (hf : ∀ a, (f a).Moves n l) : (x >>= f).Moves (m + n) (max k (m + l)) := by
  intro c
  have hfirst := hx c
  rw [EStateM.run_bind]
  cases hrun : x.run c with
  | error e c₁ =>
    rw [hrun] at hfirst
    exact hfirst.of_le (Nat.le_max_left _ _)
  | ok a c₁ =>
    rw [hrun] at hfirst
    have hsecond := hf a c₁
    change match (f a).run c₁ with
      | .ok _ c' => c.Ahead c' (m + n)
      | .error _ c' => c.Ahead c' (max k (m + l))
    cases hrun' : (f a).run c₁ with
    | ok b c₂ =>
      rw [hrun'] at hsecond
      exact hfirst.trans hsecond
    | error e c₂ =>
      rw [hrun'] at hsecond
      exact (hfirst.trans hsecond).of_le (Nat.le_max_right _ _)

/-- A value that is made of what was read takes no further bytes, and cannot fail. -/
lemma moves_bind_pure {g : α → β} (h : r.Moves taken lost) :
    (r >>= fun a => pure (g a)).Moves taken lost := by
  intro c
  have hmove := h c
  rw [EStateM.run_bind]
  cases hrun : r.run c with
  | ok a c' => rwa [hrun] at hmove
  | error e c' => rwa [hrun] at hmove

/-! ## Single readers -/

/-- A byte is passed over, or the cursor stays at the end of the data. -/
lemma moves_byte : byte.Moves 1 0 := by
  intro c
  rw [run_byte_eq_dite]
  split_ifs with hpos
  · exact ⟨rfl, Nat.le_succ _, Nat.le_refl _, fun _ => hpos⟩
  · exact .refl c

/-- A byte that is looked at is not passed over. -/
lemma moves_peek : peek.Moves 0 0 := by
  intro c
  rw [run_peek_eq_dite]
  split_ifs
  · exact .refl c
  · exact .refl c

/-- Bytes are passed over all together or not at all. -/
lemma moves_skip (n : ℕ) : (skip n).Moves n 0 := by
  intro c
  rw [run_skip_eq_ite]
  split_ifs with hle
  · rw [Cursor.remaining] at hle
    exact ⟨rfl, Nat.le_add_right _ _, Nat.le_refl _, fun hpos => by simp only; omega⟩
  · exact .refl c

lemma moves_bytes (n : ℕ) : (bytes n).Moves n 0 := by
  intro c
  rw [run_bytes]
  split_ifs with hle
  · exact ⟨rfl, Nat.le_add_right _ _, Nat.le_refl _, fun _ => hle⟩
  · exact .refl c

/-- A number takes as many bytes as it is wide, or none. -/
lemma moves_word (width : ℕ) : (word width).Moves width 0 :=
  moves_bind_pure (moves_bytes width)

lemma moves_signedWord (width : ℕ) : (signedWord width).Moves width 0 :=
  moves_bind_pure (moves_word width)

/-- A compressed integer takes up to four bytes, and as many may be lost. -/
lemma moves_compressed : compressed.Moves 4 4 := by
  refine moves_bind (n := 3) (l := 3) moves_byte fun lead => ?_
  simp only
  split_ifs
  · exact (moves_pure _).of_le (by decide) (by decide)
  · exact (moves_bind moves_byte fun _ => moves_pure _).of_le (by decide) (by decide)
  · exact moves_bind moves_byte fun _ => moves_bind moves_byte fun _ =>
      moves_bind moves_byte fun _ => moves_pure _
  · exact (moves_throw _).of_le (by decide) (by decide)

/-- A token is a compressed integer, which has been passed over even when it stands for no token. -/
lemma moves_compressedToken : compressedToken.Moves 4 4 := by
  refine moves_bind (n := 0) (l := 0) moves_compressed fun value => ?_
  cases CodedIndex.decode? .typeDefOrRef value with
  | some i => exact moves_pure i.token
  | none => exact moves_throw _

end Reader

/-! ## Calls -/

/-- A call on a cursor. -/
inductive CursorCall where
  /-- A byte. -/
  | byte
  /-- A little-endian number in so many bytes. -/
  | word (width : ℕ)
  /-- A little-endian number in two's complement, in so many bytes. -/
  | signedWord (width : ℕ)
  /-- A compressed integer. -/
  | compressed
  /-- A token, as a compressed integer. -/
  | compressedToken
  /-- The next byte, which stays unread. -/
  | peek
  /-- So many bytes, which are passed over. -/
  | skip (n : ℕ)
deriving DecidableEq

namespace CursorCall

/-- What a call gives when it succeeds. -/
def Answer : CursorCall → Type
  | byte | peek => UInt8
  | word _ | compressed => ℕ
  | signedWord _ => ℤ
  | compressedToken => Token
  | skip _ => Unit

/-- The reader that a call runs. -/
def reader : (call : CursorCall) → Reader call.Answer
  | byte => Reader.byte
  | word width => Reader.word width
  | signedWord width => Reader.signedWord width
  | compressed => Reader.compressed
  | compressedToken => Reader.compressedToken
  | peek => Reader.peek
  | skip n => Reader.skip n

/-- The calls that read something of a width which the bytes themselves announce. -/
def IsCompressed (call : CursorCall) : Prop :=
  call = compressed ∨ call = compressedToken

instance (call : CursorCall) : Decidable call.IsCompressed :=
  inferInstanceAs (Decidable (_ ∨ _))

/-- The cursor that a call leaves, whether it succeeds or fails. -/
def leaves (call : CursorCall) (c : Cursor) : Cursor :=
  Reader.left (call.reader.run c)

/-- **Every call moves the cursor ahead.** When it fails, the cursor stays in place, or moves by at
most four bytes if the call is for something compressed. -/
lemma moves (call : CursorCall) :
    ∃ taken, call.reader.Moves taken (if call.IsCompressed then 4 else 0) := by
  cases call with
  | byte => exact ⟨1, Reader.moves_byte⟩
  | word width => exact ⟨width, Reader.moves_word width⟩
  | signedWord width => exact ⟨width, Reader.moves_signedWord width⟩
  | compressed => exact ⟨4, Reader.moves_compressed⟩
  | compressedToken => exact ⟨4, Reader.moves_compressedToken⟩
  | peek => exact ⟨0, Reader.moves_peek⟩
  | skip n => exact ⟨n, Reader.moves_skip n⟩

/-- A failing call leaves the cursor in place, or passes over a part of something compressed. -/
lemma of_run_eq_error {call : CursorCall} {c c' : Cursor} {e : Fault}
    (h : call.reader.run c = .error e c') :
    (¬call.IsCompressed → c' = c) ∧ (call.IsCompressed → c'.pos ≤ c.pos + 4) := by
  obtain ⟨taken, hmoves⟩ := call.moves
  have hahead := hmoves.ahead_of_error h
  refine ⟨fun hcall => ?_, fun hcall => ?_⟩
  · rw [if_neg hcall] at hahead
    exact hahead.eq_of_zero
  · rw [if_pos hcall] at hahead
    exact hahead.near

end CursorCall

namespace Cursor

/-- The cursor behind calls in a row. Calls go on behind those that fail. -/
def after (c : Cursor) : List CursorCall → Cursor
  | [] => c
  | call :: calls => (call.leaves c).after calls

/-- **Calls in a row move the cursor ahead.** By induction on the calls. -/
lemma ahead_after (c : Cursor) (calls : List CursorCall) : ∃ n, c.Ahead (c.after calls) n := by
  induction calls generalizing c with
  | nil => exact ⟨0, .refl c⟩
  | cons call calls ih =>
    obtain ⟨taken, hmoves⟩ := call.moves
    obtain ⟨n, hahead⟩ := ih (call.leaves c)
    exact ⟨_, (hmoves.ahead_left c).trans hahead⟩

/-- The bytes between two cursors in the same data. -/
def bytesTo (c c' : Cursor) : List UInt8 :=
  (c.data.extract c.pos c'.pos).data.toList

lemma length_bytesTo {c c' : Cursor} (h : c'.pos ≤ c.data.size) :
    (c.bytesTo c').length = c'.pos - c.pos := by
  rw [bytesTo, Array.length_toList, ByteArray.size_data, ByteArray.size_extract, Nat.min_eq_left h]

end Cursor

/-! ## Numbers in two's complement -/

/-- The number that bytes stand for in two's complement, least significant first: the number without
a sign, or, when its highest bit is set, this number less two to the power of all bits. -/
def twosComplement (bs : List UInt8) : ℤ :=
  if 2 * littleEndian bs < 2 ^ (8 * bs.length) then littleEndian bs
  else littleEndian bs - 2 ^ (8 * bs.length)

/-- It is the balanced remainder of the number without a sign. -/
lemma bmod_littleEndian (bs : List UInt8) :
    Int.bmod (littleEndian bs) (1 <<< (8 * bs.length)) = twosComplement bs := by
  have hlt := littleEndian_lt bs
  rw [Nat.one_shiftLeft] at hlt ⊢
  have hmod : (littleEndian bs : ℤ) % ((2 ^ (8 * bs.length) : ℕ) : ℤ) = littleEndian bs :=
    Int.emod_eq_of_lt (Int.natCast_nonneg _) (by exact_mod_cast hlt)
  have hcast : (2 : ℤ) ^ (8 * bs.length) = ((2 ^ (8 * bs.length) : ℕ) : ℤ) := by push_cast; rfl
  rw [Int.bmod_def, hmod, twosComplement, hcast]
  generalize 2 ^ (8 * bs.length) = size at hlt
  split_ifs <;> omega

namespace Reader

/-- A byte that is read is the one that was passed over. -/
lemma bytesTo_of_run_byte {b : UInt8} {c c' : Cursor} (h : byte.run c = .ok b c') :
    c.bytesTo c' = [b] := by
  rw [run_byte_eq_dite] at h
  split_ifs at h with hpos
  cases h
  rw [Cursor.bytesTo, ByteArray.extract_add_one (by omega)]
  simp

/-- A number that is read is that of the bytes that were passed over. -/
lemma eq_littleEndian_of_run_word {width n : ℕ} {c c' : Cursor}
    (h : (word width).run c = .ok n c') :
    c'.pos = c.pos + width ∧ n = littleEndian (c.bytesTo c') := by
  obtain ⟨-, rfl, rfl⟩ := run_word_eq_ok_iff.mp h
  exact ⟨rfl, rfl⟩

/-- A number in two's complement is read as the bytes that were passed over say. -/
lemma eq_twosComplement_of_run_signedWord {width : ℕ} {i : ℤ} {c c' : Cursor}
    (h : (signedWord width).run c = .ok i c') :
    c'.pos = c.pos + width ∧ i = twosComplement (c.bytesTo c') := by
  obtain ⟨n, c₁, hword, hpure⟩ := run_bind_eq_ok_iff.mp h
  cases hpure
  obtain ⟨hle, rfl, rfl⟩ := run_word_eq_ok_iff.mp hword
  have hlength : (c.bytesTo ⟨c.data, c.pos + width⟩).length = width := by
    rw [Cursor.length_bytesTo hle]
    exact Nat.add_sub_cancel_left _ _
  refine ⟨rfl, ?_⟩
  rw [← bmod_littleEndian, hlength]
  rfl

/-! ### When they succeed -/

section Success

variable {n : ℕ} {c : Cursor}

/-- A reader that asks for something succeeds exactly when it finds it. -/
lemma exists_dite_eq_ok_iff {α : Type} {p : Prop} [Decidable p] {a : p → α} {c₁ : p → Cursor}
    {e : Fault} :
    (∃ b c', (if h : p then .ok (a h) (c₁ h) else .error e c :
      EStateM.Result Fault Cursor α) = .ok b c') ↔ p := by
  split_ifs with hp
  · exact ⟨fun _ => hp, fun _ => ⟨_, _, rfl⟩⟩
  · exact ⟨fun ⟨_, _, h⟩ => (nomatch h), fun h => absurd h hp⟩

lemma one_le_remaining_iff : 1 ≤ c.remaining ↔ c.pos < c.data.size := by
  rw [Cursor.remaining]
  omega

lemma exists_run_byte_iff : (∃ b c', byte.run c = .ok b c') ↔ 1 ≤ c.remaining := by
  rw [one_le_remaining_iff, run_byte_eq_dite]
  exact exists_dite_eq_ok_iff

lemma exists_run_peek_iff : (∃ b c', peek.run c = .ok b c') ↔ 1 ≤ c.remaining := by
  rw [one_le_remaining_iff, run_peek_eq_dite]
  exact exists_dite_eq_ok_iff

lemma exists_run_skip_iff : (∃ u c', (skip n).run c = .ok u c') ↔ n ≤ c.remaining := by
  rw [run_skip_eq_ite, ← dite_eq_ite]
  exact exists_dite_eq_ok_iff

lemma exists_run_word_iff (h : c.pos ≤ c.data.size) :
    (∃ k c', (word n).run c = .ok k c') ↔ n ≤ c.remaining := by
  rw [Cursor.remaining, Nat.le_sub_iff_add_le' h]
  refine ⟨fun ⟨k, c', hrun⟩ => (run_word_eq_ok_iff.mp hrun).1, fun hle => ?_⟩
  exact ⟨_, _, run_word_of_le hle⟩

lemma exists_run_signedWord_iff (h : c.pos ≤ c.data.size) :
    (∃ i c', (signedWord n).run c = .ok i c') ↔ n ≤ c.remaining := by
  rw [← exists_run_word_iff h]
  constructor
  · rintro ⟨i, c', hrun⟩
    obtain ⟨k, c₁, hword, -⟩ := run_bind_eq_ok_iff.mp hrun
    exact ⟨k, c₁, hword⟩
  · rintro ⟨k, c', hword⟩
    exact ⟨_, _, run_bind_eq_ok_iff.mpr ⟨k, c', hword, rfl⟩⟩

end Success

end Reader

/-! ## The cursor behind any calls -/

namespace CursorCall

/-- How many bytes must be left for a call to succeed, if it is not for something compressed. -/
def needs? : CursorCall → Option ℕ
  | byte | peek => some 1
  | word width | signedWord width => some width
  | skip n => some n
  | compressed | compressedToken => none

/-- A call succeeds exactly when the bytes that it needs are left. -/
lemma exists_run_iff {call : CursorCall} {n : ℕ} {c : Cursor} (hcall : call.needs? = some n)
    (h : c.pos ≤ c.data.size) :
    (∃ a c', call.reader.run c = .ok a c') ↔ n ≤ c.remaining := by
  cases call with
  | compressed | compressedToken => cases hcall
  | byte =>
    cases hcall
    exact Reader.exists_run_byte_iff
  | peek =>
    cases hcall
    exact Reader.exists_run_peek_iff
  | word width =>
    cases hcall
    exact Reader.exists_run_word_iff h
  | signedWord width =>
    cases hcall
    exact Reader.exists_run_signedWord_iff h
  | skip n =>
    cases hcall
    exact Reader.exists_run_skip_iff

end CursorCall

namespace Cursor

/-- **A cursor stays in order behind any calls**, those that fail included.

* It is in the same data, and not past their end; the bytes before it and the bytes that are left
  are all bytes; there are more bytes exactly when some are left; and no later calls move it back.
* A call that fails leaves it in place; if the call is for something compressed, it has moved by at
  most four bytes. A call that needs a known number of bytes fails only if they are not there.
* A number that is read is the little-endian number of exactly the bytes that were passed over, in
  two's complement if it has a sign; and as many were passed over as it is wide.

**Proof sketch.** Each call moves the cursor ahead (`CursorCall.moves`), and so do calls in a row
(`ahead_after`). A cursor ahead of the first byte has not left the data; the rest is said of the next
call alone. -/
theorem calls_in_order (data : ByteArray) (calls : List CursorCall) :
    let c := (ofBytes data).after calls
    (c.data = data ∧ c.pos ≤ data.size ∧ c.pos + c.remaining = data.size ∧
      (c.hasMore = true ↔ 0 < c.remaining) ∧ ∀ later, c.pos ≤ (c.after later).pos) ∧
    (∀ (call : CursorCall) e c', call.reader.run c = .error e c' →
      (¬call.IsCompressed → c' = c) ∧ (call.IsCompressed → c'.pos ≤ c.pos + 4)) ∧
    (∀ (call : CursorCall) n, call.needs? = some n →
      ((∃ a c', call.reader.run c = .ok a c') ↔ n ≤ c.remaining)) ∧
    (∀ width n c', (Reader.word width).run c = .ok n c' →
      c'.pos = c.pos + width ∧ n = littleEndian (c.bytesTo c')) ∧
    (∀ width i c', (Reader.signedWord width).run c = .ok i c' →
      c'.pos = c.pos + width ∧ i = twosComplement (c.bytesTo c')) ∧
    ∀ b c', Reader.byte.run c = .ok b c' → c.bytesTo c' = [b] := by
  intro c
  obtain ⟨moved, hahead⟩ := ahead_after (ofBytes data) calls
  have hdata : c.data = data := hahead.data
  have hpos : c.pos ≤ data.size := hahead.inside (Nat.zero_le _)
  have hinside : c.pos ≤ c.data.size := hdata ▸ hpos
  have hremaining : c.remaining = data.size - c.pos := by rw [remaining, hdata]
  refine ⟨⟨hdata, hpos, ?_, ?_, ?_⟩, ?_, ?_, ?_, ?_, ?_⟩
  · omega
  · rw [hasMore, decide_eq_true_iff, hdata]
    omega
  · intro later
    obtain ⟨n, hlater⟩ := c.ahead_after later
    exact hlater.forward
  · exact fun call e c' h => CursorCall.of_run_eq_error h
  · exact fun call n h => CursorCall.exists_run_iff h hinside
  · exact fun width n c' => Reader.eq_littleEndian_of_run_word
  · exact fun width i c' => Reader.eq_twosComplement_of_run_signedWord
  · exact fun b c' => Reader.bytesTo_of_run_byte

/-- Behind a byte with a sign, and behind a number for which there are too few bytes: a compressed
integer is cut off at the end of the data, and a number is read as `0xFFC0 - 0x10000`. -/
theorem calls_in_order_cutNumber :
    let c := (ofBytes ⟨#[0xFE, 0xC0, 0xFF, 0x80]⟩).after [.signedWord 1, .word 8]
    c.pos + c.remaining = 4 ∧
    CursorCall.compressed.reader.run c = .error .outOfBounds ⟨c.data, 4⟩ ∧ 4 ≤ c.pos + 4 ∧
    (CursorCall.word 8).needs? = some 8 ∧ ¬(∃ n c', (CursorCall.word 8).reader.run c = .ok n c') ∧
    (Reader.signedWord 2).run c = .ok (-64) ⟨c.data, 3⟩ ∧
    -64 = twosComplement (c.bytesTo ⟨c.data, 3⟩) := by
  intro c
  obtain ⟨⟨-, -, hsum, -, -⟩, herror, hneeds, -, hsigned, -⟩ :=
    calls_in_order ⟨#[0xFE, 0xC0, 0xFF, 0x80]⟩ [.signedWord 1, .word 8]
  have hcut : CursorCall.compressed.reader.run c = .error .outOfBounds ⟨c.data, 4⟩ := rfl
  have hword : (Reader.word 2).run c = .ok 0xFFC0 ⟨c.data, 3⟩ :=
    Reader.run_word_eq_ok_iff.mpr ⟨by decide, by decide +kernel, rfl⟩
  have hvalue : Int.bmod 0xFFC0 (1 <<< 16) = -64 := by decide
  have hread : (Reader.signedWord 2).run c = .ok (-64) ⟨c.data, 3⟩ :=
    run_bind_eq_ok_iff.mpr ⟨_, _, hword, congrArg (EStateM.Result.ok · _) hvalue⟩
  refine ⟨hsum, hcut, (herror .compressed _ _ hcut).2 (by decide), rfl, ?_, hread,
    (hsigned 2 _ _ hread).2⟩
  rw [hneeds (.word 8) 8 rfl]
  decide

end Cursor

end TypeInventory
