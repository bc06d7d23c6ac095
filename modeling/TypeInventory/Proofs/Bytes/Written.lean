import TypeInventory.Metadata.CodedIndex
import TypeInventory.Proofs.Bytes.Reading

set_option relaxedAutoImplicit false
set_option autoImplicit false

/-!
# Reading what was written

A reader undoes a way of writing when, in front of the bytes that were written and whatever follows
them, it gives the value and stops right behind these bytes. Stated with everything that may follow,
this composes: readers in a row undo what was written in a row.

## Main definitions

* `Reader.Reads` — a reader that gives a value on bytes and whatever follows them.
* `twoByteForm`, `fourByteForm`, `Reader.CompressedForm`, `signedCompressedBytes` — the forms of
  compressed integers.
* `Token.NamesType`, `Token.typeBytes` — the tokens that blobs can hold, and how they are written.

## Main results

* `Reader.reads_bind` — readers in a row.
* `Reader.reads_bytes`, `Reader.reads_word` — bytes and little-endian numbers.
* `Reader.reads_compressedBytes`, `Reader.reads_signedCompressedBytes` — compressed integers.
* `Reader.exists_compressedForm_of_run` — only what was written in one of its forms is read.
* `Reader.reads_typeBytes` — tokens.
-/

namespace TypeInventory

/-! ## Cursors -/

namespace Cursor

/-- The cursor `n` bytes further on. -/
def advance (c : Cursor) (n : ℕ) : Cursor :=
  ⟨c.data, c.pos + n⟩

lemma rest_advance (c : Cursor) (n : ℕ) : (c.advance n).rest = c.rest.drop n := by
  rw [rest, rest, advance, List.drop_drop]

lemma advance_advance (c : Cursor) (m n : ℕ) : (c.advance m).advance n = c.advance (m + n) := by
  rw [advance, advance, advance, Nat.add_assoc]

/-- Behind bytes that were read, what follows them is left. -/
lemma rest_advance_of_append {c : Cursor} {bytes suffix : List UInt8}
    (h : c.rest = bytes ++ suffix) : (c.advance bytes.length).rest = suffix := by
  rw [rest_advance, h, List.drop_left]

/-- The number of bytes that are left. -/
lemma remaining_eq (c : Cursor) : c.remaining = c.rest.length := by
  rw [remaining, rest, List.length_drop, Array.length_toList, ByteArray.size_data]

/-- The byte at the cursor. -/
lemma exists_of_rest_cons {c : Cursor} {b : UInt8} {suffix : List UInt8}
    (h : c.rest = b :: suffix) : ∃ hpos : c.pos < c.data.size, c.data[c.pos] = b := by
  have hget : c.data.data.toList[c.pos]? = some b := by
    rw [← List.head?_drop]
    exact congrArg List.head? h
  obtain ⟨hlt, hb⟩ := List.getElem?_eq_some_iff.mp hget
  exact ⟨hlt, hb⟩

/-- The bytes at the cursor, taken from the data. -/
lemma toList_extract {c : Cursor} {bytes suffix : List UInt8} (h : c.rest = bytes ++ suffix) :
    (c.data.extract c.pos (c.pos + bytes.length)).data.toList = bytes := by
  rw [ByteArray.data_extract, Array.toList_extract, List.extract_eq_take_drop,
    Nat.add_sub_cancel_left, ← Cursor.rest, h, List.take_left]

/-- Bytes at the cursor lie within the data. -/
lemma pos_add_length_le {c : Cursor} {bytes suffix : List UInt8} (h : c.rest = bytes ++ suffix)
    (hne : bytes ≠ []) : c.pos + bytes.length ≤ c.data.size := by
  have hlength : c.remaining = bytes.length + suffix.length := by
    rw [remaining_eq, h, List.length_append]
  have hpos : 0 < bytes.length := List.length_pos_iff.mpr hne
  rw [remaining] at hlength
  omega

end Cursor

/-! ## Readers of written bytes -/

namespace Reader

variable {α β : Type}

/-- The reader gives `a` in front of `bytes`, whatever follows them, and stops behind them. -/
def Reads (r : Reader α) (bytes : List UInt8) (a : α) : Prop :=
  ∀ c suffix, c.rest = bytes ++ suffix → r.run c = .ok a (c.advance bytes.length)

/-- A value needs no bytes. -/
lemma reads_pure (a : α) : (pure a : Reader α).Reads [] a := fun _ _ _ => rfl

/-- Readers in a row read what was written in a row. -/
lemma reads_bind {x : Reader α} {f : α → Reader β} {front back : List UInt8} {a : α} {b : β}
    (hx : x.Reads front a) (hf : (f a).Reads back b) : (x >>= f).Reads (front ++ back) b := by
  intro c suffix h
  rw [List.append_assoc] at h
  have hback := hf _ suffix (Cursor.rest_advance_of_append h)
  rw [EStateM.run_bind, hx c _ h]
  simp only
  rw [hback, Cursor.advance_advance, List.length_append]

/-- The next byte. -/
lemma run_byte {c : Cursor} {b : UInt8} {suffix : List UInt8} (h : c.rest = b :: suffix) :
    byte.run c = .ok b (c.advance 1) := by
  obtain ⟨hpos, hb⟩ := Cursor.exists_of_rest_cons h
  change byte c = _
  rw [byte, dif_pos hpos, hb]
  rfl

/-- The next byte, which stays unread. -/
lemma run_peek {c : Cursor} {b : UInt8} {suffix : List UInt8} (h : c.rest = b :: suffix) :
    peek.run c = .ok b c := by
  obtain ⟨hpos, hb⟩ := Cursor.exists_of_rest_cons h
  change peek c = _
  rw [peek, dif_pos hpos, hb]

/-- Bytes that are there can be passed over. -/
lemma run_skip {c : Cursor} {n : ℕ} (h : n ≤ c.rest.length) :
    (skip n).run c = .ok () (c.advance n) := by
  rw [← Cursor.remaining_eq] at h
  exact if_pos h

/-- A byte is read as it is. -/
lemma reads_byte (b : UInt8) : byte.Reads [b] b := fun _ _ h => run_byte h

/-- A byte in front of what is read then. -/
lemma reads_byte_bind {f : UInt8 → Reader α} {b : UInt8} {bytes : List UInt8} {a : α}
    (h : (f b).Reads bytes a) : (byte >>= f).Reads (b :: bytes) a :=
  reads_bind (reads_byte b) h

/-- The next byte is the first one of those that were left. -/
lemma rest_of_run_byte {c c' : Cursor} {b : UInt8} (h : byte.run c = .ok b c') :
    c.rest = b :: c'.rest ∧ c' = c.advance 1 := by
  cases hrest : c.rest with
  | nil =>
    have hremaining := Cursor.remaining_eq c
    rw [hrest, List.length_nil, Cursor.remaining] at hremaining
    have hrun : byte.run c = .error .outOfBounds c := dif_neg (by omega)
    rw [hrun] at h
    cases h
  | cons b' suffix =>
    rw [run_byte hrest] at h
    cases h
    rw [Cursor.rest_advance, hrest]
    exact ⟨rfl, rfl⟩

/-- A byte that is not there is out of bounds. -/
lemma run_byte_eq_error {c c' : Cursor} {e : Fault} (h : byte.run c = .error e c') :
    e = .outOfBounds := by
  change (if h : c.pos < c.data.size then _ else _) = _ at h
  split_ifs at h
  cases h
  rfl

/-- Bytes that are there are read as they are. -/
lemma run_bytes_of_rest {c : Cursor} {bs suffix : List UInt8} (hpos : c.pos ≤ c.data.size)
    (h : c.rest = bs ++ suffix) :
    (bytes bs.length).run c = .ok ⟨bs.toArray⟩ (c.advance bs.length) := by
  have hextract : c.data.extract c.pos (c.pos + bs.length) = ⟨bs.toArray⟩ := by
    rw [ByteArray.ext_iff, ← Array.toList_inj, Cursor.toList_extract h]
  have hremaining := Cursor.remaining_eq c
  rw [h, List.length_append, Cursor.remaining] at hremaining
  rw [run_bytes, if_pos (by omega), hextract]
  rfl

/-- Bytes are the first ones of those that were left. -/
lemma rest_of_run_bytes {c c' : Cursor} {n : ℕ} {b : ByteArray} (h : (bytes n).run c = .ok b c') :
    c.rest = b.data.toList ++ c'.rest ∧ b.size = n := by
  rw [run_bytes] at h
  split_ifs at h with hroom
  cases h
  constructor
  · have hfirst : (c.data.extract c.pos (c.pos + n)).data.toList = c.rest.take n := by
      rw [ByteArray.data_extract, Array.toList_extract, List.extract_eq_take_drop,
        Nat.add_sub_cancel_left, Cursor.rest]
    have hbehind : Cursor.rest ⟨c.data, c.pos + n⟩ = c.rest.drop n := Cursor.rest_advance c n
    rw [hfirst, hbehind, List.take_append_drop]
  · rw [ByteArray.size_extract]
    omega

/-- Bytes are read as they are. -/
lemma reads_bytes {bs : List UInt8} (hne : bs ≠ []) : (bytes bs.length).Reads bs ⟨bs.toArray⟩ := by
  intro c suffix h
  have hroom := Cursor.pos_add_length_le h hne
  exact run_bytes_of_rest (by omega) h

/-- A number that fits its width is read as it is. -/
lemma reads_word {width n : ℕ} (hpos : 0 < width) (h : n < 2 ^ (8 * width)) :
    (word width).Reads (littleEndianBytes width n) n := by
  have hne : littleEndianBytes width n ≠ [] := by
    rw [← List.length_pos_iff, length_littleEndianBytes]
    exact hpos
  have hread := reads_bytes hne
  rw [length_littleEndianBytes] at hread
  have hvalue : littleEndian (littleEndianBytes width n) = n := by
    rw [littleEndian_littleEndianBytes, Nat.one_shiftLeft, Nat.mod_eq_of_lt h]
  rw [← List.append_nil (littleEndianBytes width n)]
  refine reads_bind hread ?_
  simp only [hvalue]
  exact reads_pure n

end Reader

/-- The number at the place where it was written. -/
lemma numberAt_of_drop {data : ByteArray} {place width n : ℕ} {suffix : List UInt8}
    (h : data.data.toList.drop place = littleEndianBytes width n ++ suffix)
    (hn : n < 2 ^ (8 * width)) : numberAt data place width = n := by
  have hextract := Cursor.toList_extract (c := ⟨data, place⟩) h
  rw [length_littleEndianBytes] at hextract
  rw [numberAt, hextract, littleEndian_littleEndianBytes, Nat.one_shiftLeft, Nat.mod_eq_of_lt hn]

namespace Reader

/-! ## Compressed integers -/

/-- A byte that is made from a small number is that number. -/
lemma toNat_ofNat_of_lt {n : ℕ} (h : n < 0x100) : (UInt8.ofNat n).toNat = n := by
  rw [UInt8.toNat_ofNat', Nat.mod_eq_of_lt h]

end Reader

/-- A number below `2 ^ 14` in two bytes. -/
def twoByteForm (n : ℕ) : List UInt8 :=
  [UInt8.ofNat (0x80 + n / 0x100), UInt8.ofNat n]

/-- A number below `2 ^ 29` in four bytes. -/
def fourByteForm (n : ℕ) : List UInt8 :=
  [UInt8.ofNat (0xC0 + n / 0x1000000), UInt8.ofNat (n / 0x10000), UInt8.ofNat (n / 0x100),
    UInt8.ofNat n]

/-- The form of a signed number from `-2 ^ 28` on and below `2 ^ 28`: the least of three widths that
holds it in two's complement, with the sign in the lowest bit in place of the highest one. -/
def signedCompressedBytes (i : ℤ) : List UInt8 :=
  if -0x40 ≤ i ∧ i < 0x40 then
    [UInt8.ofNat (rotated 0x40 i)]
  else if -0x2000 ≤ i ∧ i < 0x2000 then
    twoByteForm (rotated 0x2000 i)
  else
    fourByteForm (rotated 0x10000000 i)
where
  /-- A signed number in two's complement, with the sign moved to the lowest bit. -/
  rotated (bound : ℕ) (i : ℤ) : ℕ :=
    if 0 ≤ i then 2 * i.toNat else 2 * (i + bound).toNat + 1

namespace Reader

lemma reads_compressed_of_lt {n : ℕ} (h : n < 0x80) : compressed.Reads [UInt8.ofNat n] n := by
  refine reads_byte_bind ?_
  simp only [toNat_ofNat_of_lt (show n < 0x100 by omega)]
  rw [if_pos h]
  exact reads_pure n

lemma reads_twoByteForm {n : ℕ} (h : n < 0x4000) : compressed.Reads (twoByteForm n) n := by
  refine reads_byte_bind ?_
  simp only [toNat_ofNat_of_lt (show 0x80 + n / 0x100 < 0x100 by omega)]
  rw [if_neg (by omega), if_pos (by omega)]
  refine reads_byte_bind ?_
  have hvalue : (0x80 + n / 0x100 - 0x80) * 0x100 + (UInt8.ofNat n).toNat = n := by
    rw [UInt8.toNat_ofNat']
    omega
  rw [hvalue]
  exact reads_pure n

lemma reads_fourByteForm {n : ℕ} (h : n < 2 ^ 29) : compressed.Reads (fourByteForm n) n := by
  refine reads_byte_bind ?_
  simp only [toNat_ofNat_of_lt (show 0xC0 + n / 0x1000000 < 0x100 by omega)]
  rw [if_neg (by omega), if_neg (by omega), if_pos (by omega)]
  refine reads_byte_bind (reads_byte_bind (reads_byte_bind ?_))
  have hvalue : (0xC0 + n / 0x1000000 - 0xC0) * 0x1000000 +
      (UInt8.ofNat (n / 0x10000)).toNat * 0x10000 + (UInt8.ofNat (n / 0x100)).toNat * 0x100 +
      (UInt8.ofNat n).toNat = n := by
    simp only [UInt8.toNat_ofNat']
    omega
  rw [hvalue]
  exact reads_pure n

/-- The forms of a number: in one, two or four bytes, if it fits in them. -/
inductive CompressedForm : List UInt8 → ℕ → Prop
  | oneByte {n : ℕ} (h : n < 0x80) : CompressedForm [UInt8.ofNat n] n
  | twoBytes {n : ℕ} (h : n < 0x4000) : CompressedForm (twoByteForm n) n
  | fourBytes {n : ℕ} (h : n < 2 ^ 29) : CompressedForm (fourByteForm n) n

lemma CompressedForm.ne_nil {form : List UInt8} {n : ℕ} (h : CompressedForm form n) :
    form ≠ [] := by
  cases h <;> exact List.cons_ne_nil _ _

/-- **A number in one of its forms** is read as it is. -/
lemma CompressedForm.reads {form : List UInt8} {n : ℕ} (h : CompressedForm form n) :
    compressed.Reads form n := by
  cases h with
  | oneByte h => exact reads_compressed_of_lt h
  | twoBytes h => exact reads_twoByteForm h
  | fourBytes h => exact reads_fourByteForm h

/-- The shortest form is a form. -/
lemma compressedForm_compressedBytes {n : ℕ} (h : n < 2 ^ 29) :
    CompressedForm (compressedBytes n) n := by
  unfold compressedBytes
  split_ifs with hone htwo
  · exact .oneByte hone
  · exact .twoBytes htwo
  · exact .fourBytes h

/-- **A number in its shortest form** is read as it is. -/
lemma reads_compressedBytes {n : ℕ} (h : n < 2 ^ 29) : compressed.Reads (compressedBytes n) n :=
  (compressedForm_compressedBytes h).reads

/-- Two bytes of which the first one announces them are the form of the number that is read. -/
lemma twoByteForm_eq {lead second : UInt8} (hlow : 0x80 ≤ lead.toNat) :
    twoByteForm ((lead.toNat - 0x80) * 0x100 + second.toNat) = [lead, second] := by
  have hsecond := second.toNat_lt
  have hbyte : ∀ (b : UInt8) (n : ℕ), n % 0x100 = b.toNat → UInt8.ofNat n = b := fun b n h =>
    UInt8.toNat_inj.mp (by rw [UInt8.toNat_ofNat', h])
  have hlead := lead.toNat_lt
  rw [twoByteForm, hbyte lead _ (by omega), hbyte second _ (by omega)]

/-- Four bytes of which the first one announces them are the form of the number that is read. -/
lemma fourByteForm_eq {lead second third fourth : UInt8} (hlow : 0xC0 ≤ lead.toNat) :
    fourByteForm ((lead.toNat - 0xC0) * 0x1000000 + second.toNat * 0x10000 +
      third.toNat * 0x100 + fourth.toNat) = [lead, second, third, fourth] := by
  have hsecond := second.toNat_lt
  have hthird := third.toNat_lt
  have hfourth := fourth.toNat_lt
  have hlead := lead.toNat_lt
  have hbyte : ∀ (b : UInt8) (n : ℕ), n % 0x100 = b.toNat → UInt8.ofNat n = b := fun b n h =>
    UInt8.toNat_inj.mp (by rw [UInt8.toNat_ofNat', h])
  rw [fourByteForm, hbyte lead _ (by omega), hbyte second _ (by omega), hbyte third _ (by omega),
    hbyte fourth _ (by omega)]

/-- A byte that announces itself alone is a form. -/
lemma compressedForm_single {lead : UInt8} (h : lead.toNat < 0x80) :
    CompressedForm [lead] lead.toNat := by
  have hform := CompressedForm.oneByte h
  rwa [UInt8.ofNat_toNat] at hform

/-- Two bytes of which the first one announces them are a form. -/
lemma compressedForm_pair {lead second : UInt8} (hlow : 0x80 ≤ lead.toNat)
    (hhigh : lead.toNat < 0xC0) :
    CompressedForm [lead, second] ((lead.toNat - 0x80) * 0x100 + second.toNat) := by
  have hsecond := second.toNat_lt
  have hform := CompressedForm.twoBytes
    (show (lead.toNat - 0x80) * 0x100 + second.toNat < 0x4000 by omega)
  rwa [twoByteForm_eq hlow] at hform

/-- Four bytes of which the first one announces them are a form. -/
lemma compressedForm_quadruple {lead second third fourth : UInt8} (hlow : 0xC0 ≤ lead.toNat)
    (hhigh : lead.toNat < 0xE0) :
    CompressedForm [lead, second, third, fourth]
      ((lead.toNat - 0xC0) * 0x1000000 + second.toNat * 0x10000 + third.toNat * 0x100 +
        fourth.toNat) := by
  have hsecond := second.toNat_lt
  have hthird := third.toNat_lt
  have hfourth := fourth.toNat_lt
  have hform := CompressedForm.fourBytes
    (show (lead.toNat - 0xC0) * 0x1000000 + second.toNat * 0x10000 + third.toNat * 0x100 +
      fourth.toNat < 2 ^ 29 by omega)
  rwa [fourByteForm_eq hlow] at hform

/-- **A number that is read stands there in one of its forms**, and the cursor moves behind it.

**Proof sketch.** One case for each width that the first byte announces. -/
lemma exists_compressedForm_of_run {c c' : Cursor} {n : ℕ} (h : compressed.run c = .ok n c') :
    ∃ form, CompressedForm form n ∧ c.rest = form ++ c'.rest ∧ c' = c.advance form.length := by
  obtain ⟨lead, c₁, hlead, h⟩ := run_bind_eq_ok_iff.mp h
  obtain ⟨hrest₁, hc₁⟩ := rest_of_run_byte hlead
  simp only at h
  split_ifs at h with hone htwo hfour
  · cases h
    exact ⟨_, compressedForm_single hone, hrest₁, hc₁⟩
  · obtain ⟨second, c₂, hsecond, h⟩ := run_bind_eq_ok_iff.mp h
    obtain ⟨hrest₂, hc₂⟩ := rest_of_run_byte hsecond
    cases h
    refine ⟨_, compressedForm_pair (by omega) htwo, ?_, ?_⟩
    · rw [hrest₁, hrest₂, List.cons_append, List.singleton_append]
    · rw [hc₂, hc₁, Cursor.advance_advance]
      rfl
  · obtain ⟨second, c₂, hsecond, h⟩ := run_bind_eq_ok_iff.mp h
    obtain ⟨hrest₂, hc₂⟩ := rest_of_run_byte hsecond
    obtain ⟨third, c₃, hthird, h⟩ := run_bind_eq_ok_iff.mp h
    obtain ⟨hrest₃, hc₃⟩ := rest_of_run_byte hthird
    obtain ⟨fourth, c₄, hfourth, h⟩ := run_bind_eq_ok_iff.mp h
    obtain ⟨hrest₄, hc₄⟩ := rest_of_run_byte hfourth
    cases h
    refine ⟨_, compressedForm_quadruple (by omega) hfour, ?_, ?_⟩
    · rw [hrest₁, hrest₂, hrest₃, hrest₄]
      rfl
    · rw [hc₄, hc₃, hc₂, hc₁, Cursor.advance_advance, Cursor.advance_advance,
        Cursor.advance_advance]
      rfl
  · cases h

/-- Why no number is read in front of these bytes: no width is announced, or bytes are missing. -/
def compressedFault : List UInt8 → Fault
  | [] => .outOfBounds
  | lead :: _ => if lead.toNat < 0xE0 then .outOfBounds else .malformed (.compressedLead lead)

/-- In front of a number no width is missing. -/
lemma CompressedForm.compressedFault_append {form : List UInt8} {n : ℕ}
    (h : CompressedForm form n) (suffix : List UInt8) :
    compressedFault (form ++ suffix) = .outOfBounds := by
  have hlead : ∀ lead : ℕ, lead < 0xE0 → (UInt8.ofNat lead).toNat < 0xE0 := by
    intro lead hlt
    rwa [toNat_ofNat_of_lt (by omega)]
  cases h with
  | oneByte h => exact if_pos (hlead _ (by omega))
  | twoBytes h => exact if_pos (hlead _ (by omega))
  | fourBytes h => exact if_pos (hlead _ (by omega))

/-- Where no number is read, the first byte tells why. -/
lemma run_compressed_eq_error {c c' : Cursor} {e : Fault} (h : compressed.run c = .error e c') :
    e = compressedFault c.rest := by
  cases hrest : c.rest with
  | nil =>
    rcases run_bind_eq_error h with h | ⟨lead, c₁, hlead, -⟩
    · exact run_byte_eq_error h
    · rw [(rest_of_run_byte hlead).1] at hrest
      cases hrest
  | cons lead suffix =>
    have hlead : byte.run c = .ok lead (c.advance 1) := run_byte hrest
    rw [compressed, EStateM.run_bind, hlead] at h
    simp only at h
    rw [compressedFault]
    split_ifs at h with hone htwo hfour
    · cases h
    · rw [if_pos (by omega)]
      rcases run_bind_eq_error h with h | ⟨_, _, -, h⟩
      · exact run_byte_eq_error h
      · cases h
    · rw [if_pos hfour]
      rcases run_bind_eq_error h with h | ⟨_, _, -, h⟩
      · exact run_byte_eq_error h
      rcases run_bind_eq_error h with h | ⟨_, _, -, h⟩
      · exact run_byte_eq_error h
      rcases run_bind_eq_error h with h | ⟨_, _, -, h⟩
      · exact run_byte_eq_error h
      · cases h
    · rw [if_neg hfour]
      cases h
      rfl

/-- A signed number takes as many bits as its width has. -/
lemma rotated_lt {bound : ℕ} {i : ℤ} (h : -(bound : ℤ) ≤ i ∧ i < bound) :
    signedCompressedBytes.rotated bound i < 2 * bound := by
  unfold signedCompressedBytes.rotated
  split_ifs <;> omega

/-- A signed number is passed over as an unsigned one of the same width. -/
lemma reads_signedCompressedBytes {i : ℤ} (h : -0x10000000 ≤ i ∧ i < 0x10000000) :
    ∃ n, compressed.Reads (signedCompressedBytes i) n := by
  unfold signedCompressedBytes
  split_ifs with hone htwo
  · exact ⟨_, reads_compressed_of_lt (rotated_lt hone)⟩
  · exact ⟨_, reads_twoByteForm (rotated_lt htwo)⟩
  · exact ⟨_, reads_fourByteForm (rotated_lt h)⟩

end Reader

/-! ## Tokens -/

namespace TableId

lemma number_lt (t : TableId) : t.number < 0x100 := by
  cases t <;> decide

/-- The token of a row names its table. -/
lemma table_token (t : TableId) (row : ℕ) : (t.token row).table = t.number := by
  rw [token, Token.table_ofParts, Nat.mod_eq_of_lt t.number_lt]

/-- Of the number of a row, its token keeps 24 bits. -/
lemma row_token (t : TableId) (row : ℕ) : (t.token row).row = row % 2 ^ 24 :=
  Token.row_ofParts t.number row

end TableId

namespace Token

/-- The tokens that blobs can hold: those of type definitions, references and specifications. -/
def NamesType (t : Token) : Prop :=
  t.table = TableId.typeDef.number ∨ t.table = TableId.typeRef.number ∨
    t.table = TableId.typeSpec.number

instance (t : Token) : Decidable t.NamesType :=
  inferInstanceAs (Decidable (_ ∨ _ ∨ _))

/-- The tag of a table of types. -/
def typeTag (t : Token) : ℕ :=
  if t.table = TableId.typeDef.number then 0
  else if t.table = TableId.typeRef.number then 1
  else 2

/-- A token of a type as a blob holds it: the row, and the tag in the lowest two bits. -/
def typeBytes (t : Token) : List UInt8 :=
  compressedBytes (t.row <<< 2 + t.typeTag)

/-- A token is put together from its parts. -/
lemma ofParts_table_row (t : Token) : Token.ofParts t.table t.row = t := by
  have hlt := t.value.toNat_lt
  have hvalue : (Token.ofParts t.table t.row).value.toNat = t.value.toNat := by
    rw [toNat_ofParts, table, row]
    omega
  rw [Token.mk.injEq]
  exact UInt32.toNat_inj.mp hvalue

/-- A token has a row of 24 bits, so that with its tag it has 26. -/
lemma row_shiftLeft_add_typeTag_lt (t : Token) : t.row <<< 2 + t.typeTag < 2 ^ 29 := by
  have hrow : t.row < 0x1000000 := Nat.mod_lt _ (by decide)
  have htag : t.typeTag ≤ 2 := by
    unfold typeTag
    split_ifs <;> decide
  rw [Nat.shiftLeft_eq]
  omega

end Token

/-- A token of a type is decoded from its row and its tag. -/
lemma CodedIndex.decode?_typeTag {t : Token} (h : t.NamesType) :
    ∃ i, CodedIndex.decode? .typeDefOrRef (t.row <<< 2 + t.typeTag) = some i ∧ i.token = t := by
  have hbits : CodedKind.typeDefOrRef.tagBits = 2 := by decide
  have htag : t.typeTag < 1 <<< CodedKind.typeDefOrRef.tagBits := by
    rw [hbits]
    unfold Token.typeTag
    split_ifs <;> decide
  have hdecode := decode?_add .typeDefOrRef t.row t.typeTag htag
  rw [hbits] at hdecode
  have htoken : ∀ table : TableId, t.table = table.number →
      (⟨table, t.row⟩ : CodedIndex).token = t := by
    intro table htable
    rw [CodedIndex.token, TableId.token, ← htable, Token.ofParts_table_row]
  rw [hdecode]
  unfold Token.typeTag
  rcases h with h | h | h
  · rw [if_pos h]
    exact ⟨_, rfl, htoken .typeDef h⟩
  · rw [if_neg (by rw [h]; decide), if_pos h]
    exact ⟨_, rfl, htoken .typeRef h⟩
  · rw [if_neg (by rw [h]; decide), if_neg (by rw [h]; decide)]
    exact ⟨_, rfl, htoken .typeSpec h⟩

/-- **A token of a type** is read as it is. -/
lemma Reader.reads_typeBytes {t : Token} (h : t.NamesType) :
    compressedToken.Reads t.typeBytes t := by
  obtain ⟨i, hdecode, rfl⟩ := CodedIndex.decode?_typeTag h
  rw [← List.append_nil (Token.typeBytes _)]
  refine reads_bind (reads_compressedBytes (Token.row_shiftLeft_add_typeTag_lt _)) ?_
  simp only [hdecode]
  exact reads_pure _

end TypeInventory
