import TypeInventory.Metadata.Heap
import TypeInventory.Proofs.Bytes.Written
import TypeInventory.Proofs.Text.Utf8

set_option relaxedAutoImplicit false
set_option autoImplicit false

/-!
# Heaps and their entries

A heap is written by putting entries one behind the other, after a single zero. Each entry is then
found at the place where it was put, whatever was put behind it, and a string is found from each of
its characters on. In any heap, what is found at a place is what stands there: a string in front of
a zero, or a blob behind its length.

## Main definitions

* `heapBytes`, `entryPlace` — a heap with given entries, and where each of them starts.
* `stringEntry`, `blobEntry` — the entries for a string and for a blob.
* `StandsAt` — bytes that stand at a place of the data.

## Main results

* `StringHeap.get_of_entry`, `BlobHeap.get_of_entry` — an entry is read back at its place.
* `StringHeap.get_eq_ok_iff`, `BlobHeap.get_eq_ok_iff` — what is found at a place of any heap.
* `heap_lookups` — written heaps give back their entries, and other heaps what stands in them.
-/

namespace TypeInventory

/-- A heap with the given entries behind the empty one. -/
def heapBytes (entries : List (List UInt8)) : List UInt8 :=
  0 :: entries.flatten

/-- Where an entry of a heap starts, by its position among the entries. -/
def entryPlace (entries : List (List UInt8)) (i : ℕ) : ℕ :=
  1 + (entries.take i).flatten.length

/-- The entry for a string: its bytes and a zero. -/
def stringEntry (s : String) : List UInt8 :=
  s.toUTF8.data.toList ++ [0]

/-- The entry for a blob: its length and its bytes. -/
def blobEntry (blob : List UInt8) : List UInt8 :=
  compressedBytes blob.length ++ blob

/-- The given bytes stand in the data at a place. -/
def StandsAt (data : ByteArray) (place : ℕ) (bytes : List UInt8) : Prop :=
  bytes <+: data.data.toList.drop place

instance (data : ByteArray) (place : ℕ) (bytes : List UInt8) :
    Decidable (StandsAt data place bytes) :=
  inferInstanceAs (Decidable (_ <+: _))

lemma stringEntry_ne_nil (s : String) : stringEntry s ≠ [] :=
  List.append_ne_nil_of_right_ne_nil _ (List.cons_ne_nil _ _)

lemma blobEntry_ne_nil {blob : List UInt8} (h : blob ≠ []) : blobEntry blob ≠ [] :=
  List.append_ne_nil_of_right_ne_nil _ h

/-! ## Lists that are put together -/

/-- A flattened list around one of its members. -/
lemma flatten_eq_append {α : Type} {parts : List (List α)} {i : ℕ} {part : List α}
    (h : parts[i]? = some part) :
    parts.flatten = (parts.take i).flatten ++ (part ++ (parts.drop (i + 1)).flatten) := by
  obtain ⟨hi, rfl⟩ := List.getElem?_eq_some_iff.mp h
  conv_lhs => rw [← List.take_append_drop i parts, List.flatten_append]
  rw [List.drop_eq_getElem_cons hi, List.flatten_cons]

/-- Parts of equal length take as much room as their number says. -/
lemma length_flatten_of_forall {α : Type} {parts : List (List α)} {width : ℕ}
    (h : ∀ part ∈ parts, part.length = width) : parts.flatten.length = parts.length * width := by
  induction parts with
  | nil => rw [List.flatten_nil, List.length_nil, List.length_nil, Nat.zero_mul]
  | cons part parts ih =>
    rw [List.flatten_cons, List.length_append, h part List.mem_cons_self,
      ih fun p hp => h p (List.mem_cons_of_mem part hp), List.length_cons, Nat.succ_mul,
      Nat.add_comm]

/-- A heap from one of its entries on. -/
lemma drop_heapBytes {entries : List (List UInt8)} {i : ℕ} {entry : List UInt8}
    (h : entries[i]? = some entry) :
    (heapBytes entries).drop (entryPlace entries i) =
      entry ++ (entries.drop (i + 1)).flatten := by
  rw [heapBytes, entryPlace, flatten_eq_append h, Nat.add_comm, List.drop_succ_cons,
    List.drop_left]

/-- The place of an entry lies in the heap. -/
lemma entryPlace_lt {entries : List (List UInt8)} {i : ℕ} {entry : List UInt8}
    (h : entries[i]? = some entry) (hne : entry ≠ []) :
    entryPlace entries i < (heapBytes entries).length := by
  have hpos : 0 < entry.length := List.length_pos_iff.mpr hne
  rw [heapBytes, entryPlace, flatten_eq_append h, List.length_cons, List.length_append,
    List.length_append]
  omega

/-! ## Strings -/

section Strings

/-- No byte of a character other than the zero character is zero. -/
lemma zero_notMem_utf8EncodeChar {c : Char} (h : c ≠ '\x00') : 0 ∉ String.utf8EncodeChar c := by
  have hval : c.val.toNat ≠ 0 := by
    intro hzero
    exact h (Char.ext (UInt32.toNat_inj.mp hzero))
  have hbyte : ∀ n, n % 256 ≠ 0 → (0 : UInt8) ≠ UInt8.ofNat n := by
    intro n hn heq
    have hzero := congrArg UInt8.toNat heq
    rw [UInt8.toNat_ofNat'] at hzero
    exact hn hzero.symm
  unfold String.utf8EncodeChar
  simp only
  split_ifs with hone htwo hthree
  · rw [List.mem_singleton]
    exact hbyte _ (by omega)
  · simp only [List.mem_cons, List.not_mem_nil, or_false, not_or]
    exact ⟨hbyte _ (by omega), hbyte _ (by omega)⟩
  · simp only [List.mem_cons, List.not_mem_nil, or_false, not_or]
    exact ⟨hbyte _ (by omega), hbyte _ (by omega), hbyte _ (by omega)⟩
  · simp only [List.mem_cons, List.not_mem_nil, or_false, not_or]
    exact ⟨hbyte _ (by omega), hbyte _ (by omega), hbyte _ (by omega), hbyte _ (by omega)⟩

/-- A string without the zero character has no zero byte. -/
lemma zero_notMem_toUTF8 {s : String} (h : '\x00' ∉ s.toList) : 0 ∉ s.toUTF8.data.toList := by
  rw [Text.toList_toUTF8, List.mem_flatMap]
  rintro ⟨c, hc, hzero⟩
  refine zero_notMem_utf8EncodeChar ?_ hzero
  rintro rfl
  exact h hc

/-- The byte at a place. -/
lemma getElem?_of_drop {data : ByteArray} {i : ℕ} {b : UInt8} {suffix : List UInt8}
    (h : data.data.toList.drop i = b :: suffix) : data[i]? = some b := by
  obtain ⟨hpos, hb⟩ := Cursor.exists_of_rest_cons (c := ⟨data, i⟩) h
  rw [getElem?_pos data i hpos]
  exact congrArg some hb

/-- The first zero lies behind the bytes that are not zero. -/
lemma zeroFrom?_eq_some {data : ByteArray} {bytes suffix : List UInt8} (hbytes : 0 ∉ bytes) :
    ∀ n i, data.data.toList.drop i = bytes ++ 0 :: suffix → bytes.length < n →
      StringHeap.zeroFrom? data n i = some (i + bytes.length) := by
  induction bytes with
  | nil =>
    intro n i h hn
    obtain ⟨n, rfl⟩ := Nat.exists_eq_add_of_lt hn
    rw [StringHeap.zeroFrom?, if_pos (getElem?_of_drop h)]
    rfl
  | cons b bytes ih =>
    intro n i h hn
    rw [List.mem_cons, not_or] at hbytes
    obtain ⟨hb, hbytes⟩ := hbytes
    obtain ⟨n, rfl⟩ := Nat.exists_eq_add_of_lt (Nat.zero_lt_of_lt hn)
    have hne : ¬data[i]? = some 0 := by
      rw [getElem?_of_drop h, Option.some.injEq]
      exact fun heq => hb heq.symm
    have htail : data.data.toList.drop (i + 1) = bytes ++ 0 :: suffix := by
      rw [← List.drop_drop, h, List.cons_append, List.drop_succ_cons, List.drop_zero]
    rw [List.length_cons] at hn ⊢
    rw [Nat.zero_add, StringHeap.zeroFrom?, if_neg hne, ih hbytes n (i + 1) htail (by omega)]
    congr 1
    omega

/-- The bytes of a string are those of a string. -/
lemma fromUTF8?_toUTF8 (s : String) : String.fromUTF8? s.toUTF8 = some s := by
  have hvalid : s.toUTF8.IsValidUTF8 := s.isValidUTF8
  rw [String.fromUTF8?, dif_pos hvalid]
  rfl

/-- **A string is read back from its entry.** -/
lemma StringHeap.get_of_entry {heap : StringHeap} {place : ℕ} {s : String} {suffix : List UInt8}
    (hs : '\x00' ∉ s.toList)
    (h : heap.data.data.toList.drop place = stringEntry s ++ suffix) : heap.get place = .ok s := by
  rw [stringEntry, List.append_assoc, List.singleton_append] at h
  have hroom : heap.data.size - place = s.toUTF8.data.toList.length + (suffix.length + 1) := by
    have hremaining := Cursor.remaining_eq ⟨heap.data, place⟩
    rw [Cursor.rest, h, List.length_append, List.length_cons] at hremaining
    exact hremaining
  have hzero := zeroFrom?_eq_some (zero_notMem_toUTF8 hs) (heap.data.size - place) place h
    (by omega)
  have hextract : heap.data.extract place (place + s.toUTF8.data.toList.length) = s.toUTF8 := by
    rw [ByteArray.ext_iff, ← Array.toList_inj]
    exact Cursor.toList_extract (c := ⟨heap.data, place⟩) h
  rw [get, if_pos (by omega), hzero]
  simp only [hextract, fromUTF8?_toUTF8]

/-- A string that has no zero byte has no zero character. -/
lemma notMem_toList_of_zero_notMem {s : String} (h : 0 ∉ s.toUTF8.data.toList) :
    '\x00' ∉ s.toList := by
  intro hmem
  rw [Text.toList_toUTF8, List.mem_flatMap] at h
  exact h ⟨'\x00', hmem, by decide⟩

/-- A string that is made from bytes has these bytes. -/
lemma toUTF8_of_fromUTF8? {bytes : ByteArray} {s : String} (h : String.fromUTF8? bytes = some s) :
    s.toUTF8 = bytes := by
  unfold String.fromUTF8? at h
  split_ifs at h
  cases h
  rfl

/-- The zero that is found is the first one: there is none among the bytes in front of it. -/
lemma exists_drop_of_zeroFrom? {data : ByteArray} {n i stop : ℕ}
    (h : StringHeap.zeroFrom? data n i = some stop) :
    ∃ bytes suffix, 0 ∉ bytes ∧ data.data.toList.drop i = bytes ++ 0 :: suffix ∧
      stop = i + bytes.length := by
  induction n generalizing i with
  | zero => cases h
  | succ n ih =>
    rw [StringHeap.zeroFrom?] at h
    cases hrest : data.data.toList.drop i with
    | nil =>
      -- Behind the end there is no zero, wherever the search goes on.
      have hbehind : data.data.toList.drop (i + 1) = [] := by
        rw [← List.drop_drop, hrest, List.drop_nil]
      have hnone : data[i]? = none := by
        rw [getElem?_neg data i]
        have hlength := List.drop_eq_nil_iff.mp hrest
        rw [Array.length_toList, ByteArray.size_data] at hlength
        omega
      rw [hnone, if_neg (by simp)] at h
      obtain ⟨bytes, suffix, -, hdrop, -⟩ := ih h
      rw [hbehind] at hdrop
      exact absurd hdrop.symm (List.append_ne_nil_of_right_ne_nil _ (List.cons_ne_nil _ _))
    | cons b rest =>
      have hbehind : data.data.toList.drop (i + 1) = rest := by
        rw [← List.drop_drop, hrest, List.drop_succ_cons, List.drop_zero]
      simp only [getElem?_of_drop hrest, Option.some.injEq] at h
      split_ifs at h with hzero
      · cases h
        exact ⟨[], rest, List.not_mem_nil, by rw [hzero]; rfl, rfl⟩
      · obtain ⟨bytes, suffix, hbytes, hdrop, rfl⟩ := ih h
        refine ⟨b :: bytes, suffix, ?_, ?_, ?_⟩
        · rw [List.mem_cons, not_or]
          exact ⟨fun heq => hzero heq.symm, hbytes⟩
        · rw [← hbehind, hdrop, List.cons_append]
        · rw [List.length_cons]
          omega

namespace StringHeap

/-- A string without zeros stands at a place of the heap, in front of a zero. -/
def HoldsAt (heap : StringHeap) (index : ℕ) (s : String) : Prop :=
  '\x00' ∉ s.toList ∧ StandsAt heap.data index (stringEntry s)

/-- **A string is found at a place** exactly if it has no zero and stands there in front of one.

**Proof sketch.** What is found stops at the first zero (`exists_drop_of_zeroFrom?`), so it has no
zero, and it has the bytes up to there. -/
lemma get_eq_ok_iff {heap : StringHeap} {index : ℕ} {s : String} :
    heap.get index = .ok s ↔ heap.HoldsAt index s := by
  constructor
  · intro h
    unfold get at h
    split_ifs at h with hinside
    cases hstop : zeroFrom? heap.data (heap.data.size - index) index with
    | none =>
      rw [hstop] at h
      cases h
    | some stop =>
      rw [hstop] at h
      obtain ⟨bytes, suffix, hbytes, hdrop, rfl⟩ := exists_drop_of_zeroFrom? hstop
      cases htext : String.fromUTF8? (heap.data.extract index (index + bytes.length)) with
      | none =>
        simp only [htext] at h
        cases h
      | some text =>
        simp only [htext] at h
        cases h
        have hentry : s.toUTF8.data.toList = bytes := by
          rw [toUTF8_of_fromUTF8? htext]
          exact Cursor.toList_extract (c := ⟨heap.data, index⟩) hdrop
        rw [← hentry] at hbytes hdrop
        refine ⟨notMem_toList_of_zero_notMem hbytes, suffix, ?_⟩
        rw [stringEntry, hdrop, List.append_assoc, List.singleton_append]
  · rintro ⟨hs, suffix, hentry⟩
    exact get_of_entry hs hentry.symm

/-- Why no string is found at a place: it lies behind the heap, or no text in front of a zero stands
there. -/
def faultAt (heap : StringHeap) (index : ℕ) : Fault :=
  if index < heap.data.size then .malformed (.unreadableString index) else .outOfBounds

/-- A string is found, or the place tells why none is. -/
lemma get_cases (heap : StringHeap) (index : ℕ) :
    (∃ s, heap.get index = .ok s) ∨ heap.get index = .error (heap.faultAt index) := by
  unfold get faultAt
  split_ifs with hinside
  · cases zeroFrom? heap.data (heap.data.size - index) index with
    | none => exact .inr rfl
    | some stop =>
      simp only
      cases String.fromUTF8? (heap.data.extract index stop) with
      | none => exact .inr rfl
      | some s => exact .inl ⟨s, rfl⟩
  · exact .inr rfl

/-- Where no string stands, and only there, none is found. -/
lemma get_eq_error_iff {heap : StringHeap} {index : ℕ} :
    heap.get index = .error (heap.faultAt index) ↔ ¬∃ s, heap.HoldsAt index s := by
  simp only [← get_eq_ok_iff]
  constructor
  · rintro h ⟨s, hs⟩
    rw [h] at hs
    cases hs
  · exact (heap.get_cases index).resolve_left

end StringHeap

end Strings

/-! ## Blobs -/

namespace BlobHeap

/-- A blob stands at a place of the heap, behind a form of its length. -/
def HoldsAt (heap : BlobHeap) (index : ℕ) (b : ByteArray) : Prop :=
  ∃ form, Reader.CompressedForm form b.size ∧ StandsAt heap.data index (form ++ b.data.toList)

/-- **A blob is read back from its entry**, in whatever form its length stands in front of it. -/
lemma get_of_entry {heap : BlobHeap} {place : ℕ} {form blob suffix : List UInt8}
    (hform : Reader.CompressedForm form blob.length)
    (h : heap.data.data.toList.drop place = form ++ blob ++ suffix) :
    heap.get place = .ok ⟨blob.toArray⟩ := by
  have hrest : Cursor.rest ⟨heap.data, place⟩ = form ++ (blob ++ suffix) := by
    rw [← List.append_assoc]
    exact h
  have hroom := Cursor.pos_add_length_le hrest hform.ne_nil
  have hrun : BlobHeap.blob.run ⟨heap.data, place⟩ = _ :=
    run_bind_eq_ok_iff.mpr ⟨_, _, hform.reads _ _ hrest,
      Reader.run_bytes_of_rest hroom (Cursor.rest_advance_of_append hrest)⟩
  rw [BlobHeap.get, hrun]

/-- **A blob is found at a place** exactly if a form of its length stands there, and the blob behind
it. -/
lemma get_eq_ok_iff {heap : BlobHeap} {index : ℕ} {b : ByteArray} :
    heap.get index = .ok b ↔ heap.HoldsAt index b := by
  constructor
  · intro h
    unfold get at h
    cases hrun : BlobHeap.blob.run ⟨heap.data, index⟩ with
    | error e c =>
      rw [hrun] at h
      cases h
    | ok b' c =>
      rw [hrun] at h
      cases h
      obtain ⟨length, c₁, hlength, hbytes⟩ := run_bind_eq_ok_iff.mp hrun
      obtain ⟨form, hform, hrest, -⟩ := Reader.exists_compressedForm_of_run hlength
      obtain ⟨hrest₁, rfl⟩ := Reader.rest_of_run_bytes hbytes
      refine ⟨form, hform, c.rest, ?_⟩
      rw [List.append_assoc, ← hrest₁, ← hrest]
      rfl
  · rintro ⟨form, hform, suffix, hentry⟩
    have hlength : b.data.toList.length = b.size := by
      rw [Array.length_toList, ByteArray.size_data]
    exact get_of_entry (hlength ▸ hform) hentry.symm

/-- Why no blob is found at a place: no length is announced there, or bytes are missing. -/
def faultAt (heap : BlobHeap) (index : ℕ) : Fault :=
  Reader.compressedFault (heap.data.data.toList.drop index)

/-- A blob is found, or the place tells why none is. -/
lemma get_cases (heap : BlobHeap) (index : ℕ) :
    (∃ b, heap.get index = .ok b) ∨ heap.get index = .error (heap.faultAt index) := by
  unfold get
  cases hrun : BlobHeap.blob.run ⟨heap.data, index⟩ with
  | ok b c => exact .inl ⟨b, rfl⟩
  | error e c =>
    refine .inr (congrArg Except.error ?_)
    rcases run_bind_eq_error hrun with hlength | ⟨length, c₁, hlength, hbytes⟩
    · exact Reader.run_compressed_eq_error hlength
    · obtain ⟨form, hform, hrest, -⟩ := Reader.exists_compressedForm_of_run hlength
      have hfault : heap.faultAt index = .outOfBounds := by
        change Reader.compressedFault (Cursor.rest ⟨heap.data, index⟩) = _
        rw [hrest]
        exact hform.compressedFault_append _
      rw [Reader.run_bytes] at hbytes
      split_ifs at hbytes
      cases hbytes
      exact hfault.symm

/-- Where no blob stands, and only there, none is found. -/
lemma get_eq_error_iff {heap : BlobHeap} {index : ℕ} :
    heap.get index = .error (heap.faultAt index) ↔ ¬∃ b, heap.HoldsAt index b := by
  simp only [← get_eq_ok_iff]
  constructor
  · rintro h ⟨b, hb⟩
    rw [h] at hb
    cases hb
  · exact (heap.get_cases index).resolve_left

end BlobHeap

/-! ## Written heaps and any heaps -/

/-- The entry for a string ends with the entry for each of its ends. -/
lemma stringEntry_append (front back : String) :
    stringEntry (front ++ back) = front.toUTF8.data.toList ++ stringEntry back := by
  rw [stringEntry, stringEntry, Text.toList_toUTF8, Text.toList_toUTF8, Text.toList_toUTF8,
    String.toList_append, List.flatMap_append, List.append_assoc]

/-- A heap of written strings gives back each of them from each of its characters on. -/
lemma StringHeap.get_heapBytes {strings : List String} (h : ∀ s ∈ strings, '\x00' ∉ s.toList)
    {i : ℕ} {front back : String} (hi : strings[i]? = some (front ++ back)) :
    StringHeap.get ⟨⟨(heapBytes (strings.map stringEntry)).toArray⟩⟩
      (entryPlace (strings.map stringEntry) i + front.utf8ByteSize) = .ok back := by
  have hentry : (strings.map stringEntry)[i]? = some (stringEntry (front ++ back)) := by
    rw [List.getElem?_map, hi, Option.map_some]
  have hback : '\x00' ∉ back.toList := by
    have hall := h _ (List.mem_of_getElem? hi)
    rw [String.toList_append, List.mem_append, not_or] at hall
    exact hall.2
  have hdrop : (heapBytes (strings.map stringEntry)).drop
        (entryPlace (strings.map stringEntry) i + front.utf8ByteSize) =
      stringEntry back ++ ((strings.map stringEntry).drop (i + 1)).flatten := by
    rw [← List.drop_drop, drop_heapBytes hentry, stringEntry_append, ← Text.length_toUTF8,
      List.append_assoc, List.drop_left]
  exact get_of_entry hback hdrop

/-- A heap of written blobs gives back each of them. -/
lemma BlobHeap.get_heapBytes {blobs : List (List UInt8)} (h : ∀ b ∈ blobs, b.length < 2 ^ 29)
    {i : ℕ} {blob : List UInt8} (hi : blobs[i]? = some blob) :
    BlobHeap.get ⟨⟨(heapBytes (blobs.map blobEntry)).toArray⟩⟩
      (entryPlace (blobs.map blobEntry) i) = .ok ⟨blob.toArray⟩ := by
  have hentry : (blobs.map blobEntry)[i]? = some (blobEntry blob) := by
    rw [List.getElem?_map, hi, Option.map_some]
  exact get_of_entry (Reader.compressedForm_compressedBytes (h _ (List.mem_of_getElem? hi)))
    (drop_heapBytes hentry)

/-- **Looking up strings and blobs.** Any strings without zeros, written one behind the other and
each with a zero behind it, make a heap that gives back each of them from each of its characters on.
Any blobs that are short enough, written one behind the other and each behind its length, make a
heap that gives back each of them. In any heap and at any place, a string is found exactly if it has
no zeros and stands there in front of one, and a blob is found exactly if it stands there behind a
form of its length; where none stands, the fault tells whether the place lies behind the heap.

**Proof sketch.** The first zero behind a place ends the string that is found there
(`exists_drop_of_zeroFrom?`), and the length that is read at a place is one of its forms
(`Reader.exists_compressedForm_of_run`). So what is found stands there, and what stands there is
found (`StringHeap.get_of_entry`, `BlobHeap.get_of_entry`), in written heaps as in any others. -/
theorem heap_lookups :
    (∀ strings : List String, (∀ s ∈ strings, '\x00' ∉ s.toList) →
      ∃ heap, StringHeap.ofBytes ⟨(heapBytes (strings.map stringEntry)).toArray⟩ = .ok heap ∧
        ∀ i front back, strings[i]? = some (front ++ back) →
          heap.get (entryPlace (strings.map stringEntry) i + front.utf8ByteSize) = .ok back) ∧
    (∀ blobs : List (List UInt8), (∀ blob ∈ blobs, blob.length < 2 ^ 29) →
      ∃ heap, BlobHeap.ofBytes ⟨(heapBytes (blobs.map blobEntry)).toArray⟩ = .ok heap ∧
        ∀ i blob, blobs[i]? = some blob →
          heap.get (entryPlace (blobs.map blobEntry) i) = .ok ⟨blob.toArray⟩) ∧
    (∀ (heap : StringHeap) (index : ℕ),
      (∀ s, heap.get index = .ok s ↔
        '\x00' ∉ s.toList ∧ StandsAt heap.data index (stringEntry s)) ∧
      (heap.get index = .error (heap.faultAt index) ↔ ¬∃ s, heap.HoldsAt index s)) ∧
    ∀ (heap : BlobHeap) (index : ℕ),
      (∀ b, heap.get index = .ok b ↔
        ∃ form, Reader.CompressedForm form b.size ∧
          StandsAt heap.data index (form ++ b.data.toList)) ∧
      (heap.get index = .error (heap.faultAt index) ↔ ¬∃ b, heap.HoldsAt index b) := by
  refine ⟨fun strings hstrings => ?_, fun blobs hblobs => ?_,
    fun heap index => ⟨fun s => StringHeap.get_eq_ok_iff, StringHeap.get_eq_error_iff⟩,
    fun heap index => ⟨fun b => BlobHeap.get_eq_ok_iff, BlobHeap.get_eq_error_iff⟩⟩
  · exact ⟨_, rfl, fun i front back hi => StringHeap.get_heapBytes hstrings hi⟩
  · exact ⟨_, rfl, fun i blob hi => BlobHeap.get_heapBytes hblobs hi⟩

/-- A string is found from its second character on, which has two bytes, and two blobs behind an
empty one and behind one with a length of two bytes. -/
theorem heap_lookups_shortEntries :
    (∃ heap, StringHeap.ofBytes ⟨(heapBytes (["Game", "née"].map stringEntry)).toArray⟩ =
        .ok heap ∧ heap.get 7 = .ok "ée") ∧
      ∃ heap, BlobHeap.ofBytes
          ⟨(heapBytes ([[], List.replicate 128 7, [6, 8]].map blobEntry)).toArray⟩ = .ok heap ∧
        heap.get 2 = .ok ⟨(List.replicate 128 7).toArray⟩ ∧ heap.get 132 = .ok ⟨#[6, 8]⟩ := by
  obtain ⟨hstrings, hblobs, -⟩ := heap_lookups
  obtain ⟨strings, hopen, hget⟩ := hstrings ["Game", "née"] (by decide)
  obtain ⟨blobs, hopen', hget'⟩ := hblobs [[], List.replicate 128 7, [6, 8]] (by simp)
  have hlong := hget' 1 _ rfl
  have hlast := hget' 2 _ rfl
  rw [show entryPlace ([[], List.replicate 128 7, [6, 8]].map blobEntry) 1 = 2 by rfl] at hlong
  rw [show entryPlace ([[], List.replicate 128 7, [6, 8]].map blobEntry) 2 = 132 by
    decide +kernel] at hlast
  exact ⟨⟨strings, hopen, hget 1 "n" "ée" (by decide)⟩, blobs, hopen', hlong, hlast⟩

end TypeInventory
