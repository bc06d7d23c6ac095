import TypeInventory.Metadata.Root
import TypeInventory.Proofs.Checked.Operations

set_option relaxedAutoImplicit false
set_option autoImplicit false

/-!
# The metadata root, checked

The root is read from parts of the metadata: the stream headers from what is left behind the headers
in front of them, the names and the version from parts of fixed places. All of these parts lie
within the metadata, whatever the metadata are. A stream that the root declares lies within the
metadata, too, and its end is a number of 32 bits.

## Main definitions

* `StreamHeader.checkedRead`, `StreamHeader.checkedList` — stream headers from parts of the
  metadata.
* `MetadataRoot.checkedOfBytes` — the root from parts of the metadata.
* `MetadataRoot.checkedStream?` — the contents of a stream, with a checked end.

## Main results

* `MetadataRoot.checkedOfBytes_eq` — reading the root takes no part that is not there.
* `MetadataRoot.stream_fits` — the end of a declared stream.
* `MetadataRoot.checkedStream?_eq` — finding a stream does not leave 32 bits.
-/

namespace TypeInventory

open Checked

/-- A part does not change when its end is moved to the end of the data. -/
lemma extract_min_size (data : ByteArray) (first stop : ℕ) :
    data.extract first (min stop data.size) = data.extract first stop := by
  apply ByteArray.ext
  rw [ByteArray.data_extract, ByteArray.data_extract, Array.extract_eq_extract_right,
    ByteArray.size_data]
  omega

/-- What comes before the first zero is a first part. -/
lemma beforeZero_eq_take (bytes : List UInt8) :
    beforeZero bytes = bytes.take (beforeZero bytes).length :=
  List.prefix_iff_eq_take.mp (List.takeWhile_prefix _)

/-- The bytes of a first part. -/
lemma toList_extract_zero (data : ByteArray) (n : ℕ) :
    (data.extract 0 n).data.toList = data.data.toList.take n := by
  simp [ByteArray.data_extract]

/-! ## Stream headers -/

namespace StreamHeader

/-- The stream header at the start of the data, with the length that it takes. -/
def checkedRead (data : ByteArray) : ExceptT Fault Option (StreamHeader × ℕ) := do
  if data.size < 9 then
    throw .outOfBounds
  else
    let area ← part data 8 (min data.size 40)
    let nameLength := (beforeZero area.data.toList).length
    if nameLength = area.size then
      throw .outOfBounds
    else
      let name ← part area 0 nameLength
      let offset ← word data 0 4
      let behind ← part data 4 data.size
      let size ← word behind 0 4
      return (⟨offset, size, Text.repairUtf8 name.data.toList⟩, 8 + paddedLength nameLength)

/-- The header of a stream at a place, if it is there. -/
def headerAt (data : ByteArray) (place : ℕ) : StreamHeader where
  offset := numberAt data place 4
  size := numberAt data (place + 4) 4
  name := Text.repairUtf8 (beforeZero (data.extract (place + 8) (place + 40)).data.toList)

/-- The length of a stream header. -/
def lengthAt (data : ByteArray) (place : ℕ) : ℕ :=
  8 + paddedLength (beforeZero (data.extract (place + 8) (place + 40)).data.toList).length

/-- A stream header is there. -/
def IsThere (data : ByteArray) (place : ℕ) : Prop :=
  place + 9 ≤ data.size ∧
    (beforeZero (data.extract (place + 8) (place + 40)).data.toList).length ≠
      (data.extract (place + 8) (place + 40)).data.toList.length

section Header

variable {data : ByteArray} {place : ℕ}

/-- A stream header that is there is read. -/
lemma run_read_of_isThere (h : IsThere data place) :
    StreamHeader.read.run ⟨data, place⟩ =
      .ok (headerAt data place) ⟨data, place + lengthAt data place⟩ := by
  obtain ⟨hroom, hname⟩ := h
  have hoffset : (Reader.word 4).run ⟨data, place⟩ =
      .ok (numberAt data place 4) ⟨data, place + 4⟩ :=
    Reader.run_word_of_le (show place + 4 ≤ data.size by omega)
  have hsize : (Reader.word 4).run ⟨data, place + 4⟩ =
      .ok (numberAt data (place + 4) 4) ⟨data, place + 4 + 4⟩ :=
    Reader.run_word_of_le (show place + 4 + 4 ≤ data.size by omega)
  have hrest : ¬data.size - place < 9 := by omega
  unfold StreamHeader.read
  simp only [EStateM.run_bind, EStateM.run_get, Cursor.remaining, if_neg hrest, hoffset, hsize,
    if_neg hname, EStateM.run_set, EStateM.run_pure]
  rw [lengthAt, Nat.add_assoc]
  rfl

/-- A stream header that is not there is out of bounds. -/
lemma run_read_of_not_isThere (h : ¬IsThere data place) :
    ∃ c, StreamHeader.read.run ⟨data, place⟩ = .error .outOfBounds c := by
  unfold StreamHeader.read
  by_cases hrest : data.size - place < 9
  · refine ⟨⟨data, place⟩, ?_⟩
    simp only [EStateM.run_bind, EStateM.run_get, Cursor.remaining, if_pos hrest, EStateM.run_throw]
  · have hname : (beforeZero (data.extract (place + 8) (place + 40)).data.toList).length =
        (data.extract (place + 8) (place + 40)).data.toList.length :=
      Classical.byContradiction fun hname => h ⟨by omega, hname⟩
    have hoffset : (Reader.word 4).run ⟨data, place⟩ =
        .ok (numberAt data place 4) ⟨data, place + 4⟩ :=
      Reader.run_word_of_le (show place + 4 ≤ data.size by omega)
    have hsize : (Reader.word 4).run ⟨data, place + 4⟩ =
        .ok (numberAt data (place + 4) 4) ⟨data, place + 4 + 4⟩ :=
      Reader.run_word_of_le (show place + 4 + 4 ≤ data.size by omega)
    refine ⟨⟨data, place + 4 + 4⟩, ?_⟩
    simp only [EStateM.run_bind, EStateM.run_get, Cursor.remaining, if_neg hrest, hoffset, hsize,
      if_pos hname, EStateM.run_throw]

/-- The area of the name in what is left of the data. -/
lemma extract_area (hroom : place + 9 ≤ data.size) :
    part (data.extract place data.size) 8 (min (data.extract place data.size).size 40) =
      some (data.extract (place + 8) (place + 40)) := by
  have hrest : (data.extract place data.size).size = data.size - place := by
    rw [ByteArray.size_extract]
    omega
  have hstop : min (place + min (data.size - place) 40) data.size =
      min (place + 40) data.size := by
    omega
  rw [hrest, part_of_le (by omega) (by omega), ByteArray.extract_extract, hstop,
    extract_min_size]

/-- Reading a stream header that is there takes parts of the data that are there. -/
lemma checkedRead_of_isThere (h : IsThere data place) :
    checkedRead (data.extract place data.size) =
      plain (.ok (headerAt data place, lengthAt data place)) := by
  obtain ⟨hroom, hname⟩ := h
  have hrest : (data.extract place data.size).size = data.size - place := by
    rw [ByteArray.size_extract]
    omega
  have harea : (data.extract (place + 8) (place + 40)).data.toList.length =
      (data.extract (place + 8) (place + 40)).size := by
    rw [Array.length_toList, ByteArray.size_data]
  have hfront := beforeZero_eq_take (data.extract (place + 8) (place + 40)).data.toList
  have hlength : (beforeZero (data.extract (place + 8) (place + 40)).data.toList).length ≤
      (data.extract (place + 8) (place + 40)).size := by
    rw [← harea, hfront, List.length_take]
    exact Nat.min_le_right _ _
  rw [harea] at hname
  have hbehind : part (data.extract place data.size) 4 (data.extract place data.size).size =
      some (data.extract (place + 4) data.size) := by
    have hstop : min (place + (data.size - place)) data.size = data.size := by omega
    rw [part_of_le (by omega) (Nat.le_refl _), ByteArray.extract_extract, hrest, hstop]
  rw [checkedRead, if_neg (by omega), extract_area hroom, some_bind]
  simp only [if_neg hname]
  rw [part_of_le (Nat.zero_le _) hlength, some_bind, word_extract_of_le (by omega),
    plain_ok_bind, hbehind, some_bind, word_extract_of_le (by omega), plain_ok_bind,
    toList_extract_zero, ← hfront]
  rfl

/-- Reading a stream header that is not there takes parts of the data that are there, too. -/
lemma checkedRead_of_not_isThere (h : ¬IsThere data place) :
    checkedRead (data.extract place data.size) = plain (.error .outOfBounds) := by
  have hrest : (data.extract place data.size).size = data.size - place := by
    rw [ByteArray.size_extract]
    omega
  by_cases hroom : place + 9 ≤ data.size
  · have hname : (beforeZero (data.extract (place + 8) (place + 40)).data.toList).length =
        (data.extract (place + 8) (place + 40)).size := by
      rw [← ByteArray.size_data, ← Array.length_toList]
      exact Classical.byContradiction fun hname => h ⟨hroom, hname⟩
    rw [checkedRead, if_neg (by omega), extract_area hroom, some_bind]
    simp only [if_pos hname]
    rfl
  · rw [checkedRead, if_pos (by omega)]
    rfl

end Header

/-- The headers of `n` streams from a place on, one behind the other. Each stream has to lie within
the data. -/
def checkedList (data : ByteArray) : ℕ → ℕ → ExceptT Fault Option (List StreamHeader)
  | 0, _ => return []
  | n + 1, place => do
    if data.size ≤ place then
      throw .outOfBounds
    else
      let rest ← part data place data.size
      let (header, length) ← checkedRead rest
      if 0x100000000 ≤ header.offset + header.size then
        throw (.malformed (.streamOverflow header.offset header.size))
      else if data.size < header.offset + header.size then
        throw .outOfBounds
      else
        let headers ← checkedList data n (place + length)
        return header :: headers

section List

variable {data : ByteArray} {place : ℕ}

/-- A stream header that is there declares a stream, which has to lie within the data. -/
lemma run_readWithin_of_isThere (h : IsThere data place) :
    StreamHeader.readWithin.run ⟨data, place⟩ =
      if 0x100000000 ≤ (headerAt data place).offset + (headerAt data place).size then
        .error
          (.malformed (.streamOverflow (headerAt data place).offset (headerAt data place).size))
          ⟨data, place + lengthAt data place⟩
      else if data.size < (headerAt data place).offset + (headerAt data place).size then
        .error .outOfBounds ⟨data, place + lengthAt data place⟩
      else .ok (headerAt data place) ⟨data, place + lengthAt data place⟩ := by
  unfold StreamHeader.readWithin
  simp only [EStateM.run_bind, run_read_of_isThere h, EStateM.run_get]
  split_ifs <;> rfl

/-- Without a stream header there is no stream. -/
lemma run_readWithin_of_not_isThere (h : ¬IsThere data place) :
    ∃ c, StreamHeader.readWithin.run ⟨data, place⟩ = .error .outOfBounds c := by
  obtain ⟨c, hread⟩ := run_read_of_not_isThere h
  refine ⟨c, ?_⟩
  unfold StreamHeader.readWithin
  simp only [EStateM.run_bind, hread]

/-- Reading stream headers one behind the other takes parts of the data that are there. -/
lemma checkedList_eq (n place : ℕ) :
    checkedList data n place =
      plain (Reader.outcome ((collect StreamHeader.readWithin n).run ⟨data, place⟩)) := by
  induction n generalizing place with
  | zero => rfl
  | succ n ih =>
    rw [collect_succ, EStateM.run_bind, checkedList]
    by_cases hthere : IsThere data place
    · have hplace : place < data.size := by
        have := hthere.1
        omega
      rw [if_neg (Nat.not_le.mpr hplace), part_of_le (Nat.le_of_lt hplace) (Nat.le_refl _),
        some_bind, checkedRead_of_isThere hthere, plain_ok_bind, run_readWithin_of_isThere hthere]
      simp only
      split_ifs
      · rfl
      · rfl
      · rw [ih]
        simp only [map_eq_pure_bind, EStateM.run_bind]
        cases (collect readWithin n).run ⟨data, place + lengthAt data place⟩ <;> rfl
    · obtain ⟨c, hread⟩ := run_readWithin_of_not_isThere hthere
      rw [hread]
      by_cases hplace : data.size ≤ place
      · rw [if_pos hplace]
        rfl
      · rw [if_neg hplace, part_of_le (Nat.le_of_not_le hplace) (Nat.le_refl _), some_bind,
          checkedRead_of_not_isThere hthere]
        rfl

/-- Every stream that is declared ends within the data, at a number of 32 bits. -/
lemma fits_of_mem {n : ℕ} {c : Cursor} {headers : List StreamHeader}
    (h : (collect StreamHeader.readWithin n).run ⟨data, place⟩ = .ok headers c) :
    ∀ header ∈ headers, header.offset + header.size < 2 ^ 32 ∧
      header.offset + header.size ≤ data.size := by
  induction n generalizing place headers with
  | zero =>
    cases h
    simp
  | succ n ih =>
    rw [collect_succ] at h
    obtain ⟨header, c₁, hheader, hrest⟩ := run_bind_eq_ok_iff.mp h
    by_cases hthere : IsThere data place
    · rw [run_readWithin_of_isThere hthere] at hheader
      split_ifs at hheader with hoverflow hpast
      cases hheader
      rw [map_eq_pure_bind] at hrest
      obtain ⟨rest, c₂, hrest, hpure⟩ := run_bind_eq_ok_iff.mp hrest
      cases hpure
      rw [List.forall_mem_cons]
      exact ⟨⟨by omega, by omega⟩, ih hrest⟩
    · obtain ⟨c', hread⟩ := run_readWithin_of_not_isThere hthere
      rw [hread] at hheader
      cases hheader

end List

end StreamHeader

/-! ## The root -/

namespace MetadataRoot

/-- The root at the start of the metadata. -/
def checkedOfBytes (data : ByteArray) : ExceptT Fault Option MetadataRoot := do
  if data.size < 20 then
    throw .outOfBounds
  else
    let signature ← word data 0 4
    if signature ≠ rootSignature then
      throw (.malformed (.rootSignature signature))
    else
      let versionLength ← word data 12 4
      let versionEnd := 16 + versionLength
      if data.size < versionEnd + 4 then
        throw .outOfBounds
      else
        let area ← part data 16 versionEnd
        let version ← part area 0 (beforeZero area.data.toList).length
        let count ← word data (versionEnd + 2) 2
        if count = 0 then
          throw (.malformed .noStreams)
        else
          let streams ← StreamHeader.checkedList data count (versionEnd + 4)
          let behindSignature ← part data 4 data.size
          let major ← word behindSignature 0 2
          let behindMajor ← part data 6 data.size
          let minor ← word behindMajor 0 2
          return ⟨major, minor, Text.repairUtf8 version.data.toList, streams⟩

section Root

variable {data : ByteArray}

/-- Asking for bytes succeeds when they are left. -/
lemma run_need (n : ℕ) (c : Cursor) :
    (need n).run c = if c.remaining < n then .error .outOfBounds c else .ok () c := by
  unfold need
  simp only [EStateM.run_bind, EStateM.run_get]
  split_ifs <;> rfl

/-- Passing over bytes that are there succeeds. -/
lemma run_skip_of_le {n : ℕ} {c : Cursor} (h : c.pos + n ≤ c.data.size) :
    (Reader.skip n).run c = .ok () ⟨c.data, c.pos + n⟩ :=
  if_pos (by rw [Cursor.remaining]; omega)

/-- The length of the version. -/
def versionLength (data : ByteArray) : ℕ :=
  numberAt data 12 4

/-- The bytes of the version. -/
def versionBytes (data : ByteArray) : List UInt8 :=
  (data.extract 16 (16 + versionLength data)).data.toList

/-- The number of streams. -/
def streamCount (data : ByteArray) : ℕ :=
  numberAt data (16 + versionLength data + 2) 2

/-- What the root is when there are bytes for its head: its parts lie at places that the length of
the version determines. -/
def ofHead (data : ByteArray) : Except Fault MetadataRoot :=
  if numberAt data 0 4 ≠ rootSignature then
    .error (.malformed (.rootSignature (numberAt data 0 4)))
  else if data.size < 16 + versionLength data + 4 then
    .error .outOfBounds
  else if streamCount data = 0 then
    .error (.malformed .noStreams)
  else
    (Reader.outcome ((collect StreamHeader.readWithin (streamCount data)).run
      ⟨data, 16 + versionLength data + 4⟩)).map fun streams =>
        ⟨numberAt data 4 2, numberAt data 6 2, Text.repairUtf8 (beforeZero (versionBytes data)),
          streams⟩

/-- Metadata of less than twenty bytes have no root. -/
lemma ofBytes_of_lt (h : data.size < 20) : ofBytes data = .error .outOfBounds := by
  have hneed : (⟨data, 0⟩ : Cursor).remaining < 20 := h
  rw [ofBytes, Reader.runOn_eq_outcome]
  unfold MetadataRoot.read
  simp only [EStateM.run_bind, run_need, if_pos hneed]
  rfl

/-- The root of metadata with bytes for its head. -/
lemma ofBytes_of_le (h : 20 ≤ data.size) : ofBytes data = ofHead data := by
  have hneed : ¬(⟨data, 0⟩ : Cursor).remaining < 20 := Nat.not_lt.mpr h
  have hsignature : (Reader.word 4).run ⟨data, 0⟩ = .ok (numberAt data 0 4) ⟨data, 4⟩ :=
    Reader.run_word_of_le (show 0 + 4 ≤ data.size by omega)
  have hmajor : (Reader.word 2).run ⟨data, 4⟩ = .ok (numberAt data 4 2) ⟨data, 6⟩ :=
    Reader.run_word_of_le (show 4 + 2 ≤ data.size by omega)
  have hminor : (Reader.word 2).run ⟨data, 6⟩ = .ok (numberAt data 6 2) ⟨data, 8⟩ :=
    Reader.run_word_of_le (show 6 + 2 ≤ data.size by omega)
  have hreserved : (Reader.skip 4).run ⟨data, 8⟩ = .ok () ⟨data, 12⟩ :=
    run_skip_of_le (show 8 + 4 ≤ data.size by omega)
  have hlength : (Reader.word 4).run ⟨data, 12⟩ = .ok (versionLength data) ⟨data, 16⟩ :=
    Reader.run_word_of_le (show 12 + 4 ≤ data.size by omega)
  rw [ofBytes, Reader.runOn_eq_outcome, ofHead]
  unfold MetadataRoot.read
  by_cases hmagic : numberAt data 0 4 = rootSignature
  · rw [if_neg (not_not_intro hmagic)]
    simp only [EStateM.run_bind, run_need, if_neg hneed, hsignature, if_neg (not_not_intro hmagic),
      hmajor, hminor, hreserved, hlength]
    by_cases hpast : data.size < 16 + versionLength data + 4
    · have hmore : (⟨data, 16⟩ : Cursor).remaining < versionLength data + 4 := by
        rw [Cursor.remaining]
        simp only
        omega
      rw [if_pos hpast]
      simp only [if_pos hmore]
      rfl
    · have hmore : ¬(⟨data, 16⟩ : Cursor).remaining < versionLength data + 4 := by
        rw [Cursor.remaining]
        simp only
        omega
      have hversion : (Reader.bytes (versionLength data)).run ⟨data, 16⟩ =
          .ok (data.extract 16 (16 + versionLength data)) ⟨data, 16 + versionLength data⟩ := by
        rw [Reader.run_bytes]
        exact if_pos (show 16 + versionLength data ≤ data.size by omega)
      have hflags : (Reader.skip 2).run ⟨data, 16 + versionLength data⟩ =
          .ok () ⟨data, 16 + versionLength data + 2⟩ :=
        run_skip_of_le (show 16 + versionLength data + 2 ≤ data.size by omega)
      have hcount : (Reader.word 2).run ⟨data, 16 + versionLength data + 2⟩ =
          .ok (streamCount data) ⟨data, 16 + versionLength data + 4⟩ :=
        Reader.run_word_of_le (show 16 + versionLength data + 2 + 2 ≤ data.size by omega)
      rw [if_neg hpast]
      simp only [if_neg hmore, hversion, hflags, hcount]
      by_cases hnone : streamCount data = 0
      · rw [if_pos hnone, if_pos hnone]
        rfl
      · rw [if_neg hnone, if_neg hnone]
        simp only [EStateM.run_bind]
        cases (collect StreamHeader.readWithin (streamCount data)).run
          ⟨data, 16 + versionLength data + 4⟩ <;> rfl
  · rw [if_pos hmagic]
    simp only [EStateM.run_bind, run_need, if_neg hneed, hsignature, if_pos hmagic,
      EStateM.run_throw]
    rfl

/-- **Reading the root takes no part of the metadata that is not there**, and gives the root.

**Proof sketch.** Each part is taken behind a check that its end is within the metadata: 20 bytes
for the numbers in front of the version, and the length of the version and four bytes for the
others. The stream headers are `StreamHeader.checkedList_eq`. -/
lemma checkedOfBytes_eq (data : ByteArray) : checkedOfBytes data = plain (ofBytes data) := by
  unfold checkedOfBytes
  by_cases hshort : data.size < 20
  · rw [if_pos hshort, ofBytes_of_lt hshort]
    rfl
  · have hsize : 20 ≤ data.size := Nat.not_lt.mp hshort
    rw [if_neg hshort, ofBytes_of_le hsize, ofHead, word_of_le (by omega), plain_ok_bind]
    by_cases hmagic : numberAt data 0 4 = rootSignature
    · rw [if_neg (not_not_intro hmagic), if_neg (not_not_intro hmagic), word_of_le (by omega),
        plain_ok_bind, ← versionLength]
      simp only
      by_cases hpast : data.size < 16 + versionLength data + 4
      · rw [if_pos hpast, if_pos hpast]
        rfl
      · have harea : (data.extract 16 (16 + versionLength data)).size = versionLength data := by
          rw [ByteArray.size_extract]
          omega
        have hfront := beforeZero_eq_take (versionBytes data)
        have hversion : (beforeZero (versionBytes data)).length ≤
            (data.extract 16 (16 + versionLength data)).size := by
          rw [← ByteArray.size_data, ← Array.length_toList, ← versionBytes, hfront,
            List.length_take]
          exact Nat.min_le_right _ _
        rw [if_neg hpast, if_neg hpast, part_of_le (by omega) (by omega), some_bind,
          ← versionBytes, part_of_le (Nat.zero_le _) hversion, some_bind, word_of_le (by omega),
          plain_ok_bind, ← streamCount]
        by_cases hnone : streamCount data = 0
        · rw [if_pos hnone, if_pos hnone]
          rfl
        · rw [if_neg hnone, if_neg hnone, StreamHeader.checkedList_eq, toList_extract_zero,
            ← versionBytes, ← hfront, part_of_le (by omega) (Nat.le_refl _),
            part_of_le (by omega) (Nat.le_refl _)]
          simp only [some_bind, word_extract_of_le (show 4 + 2 ≤ data.size by omega),
            word_extract_of_le (show 6 + 2 ≤ data.size by omega), plain_ok_bind]
          cases Reader.outcome ((collect StreamHeader.readWithin (streamCount data)).run
            ⟨data, 16 + versionLength data + 4⟩) <;> rfl
    · rw [if_pos hmagic, if_pos hmagic]
      rfl

/-- The end of a declared stream is a number of 32 bits within the metadata. -/
lemma stream_fits {root : MetadataRoot} (h : ofBytes data = .ok root) :
    ∀ header ∈ root.streams, header.offset + header.size < 2 ^ 32 ∧
      header.offset + header.size ≤ data.size := by
  by_cases hshort : data.size < 20
  · rw [ofBytes_of_lt hshort] at h
    cases h
  · rw [ofBytes_of_le (Nat.not_lt.mp hshort), ofHead] at h
    split_ifs at h
    cases hstreams : (collect StreamHeader.readWithin (streamCount data)).run
        ⟨data, 16 + versionLength data + 4⟩ with
    | ok streams c =>
      rw [hstreams] at h
      cases h
      exact StreamHeader.fits_of_mem hstreams
    | error e c =>
      rw [hstreams] at h
      cases h

end Root

/-! ## Streams -/

/-- The contents of the stream of a given name, from its place to its end. -/
def checkedStream? (root : MetadataRoot) (metadata : ByteArray) (name : String) :
    Option (Option ByteArray) :=
  match root.header? name with
  | none => some none
  | some header => do
    let stop ← add 32 header.offset header.size
    let stream ← part metadata header.offset stop
    return some stream

/-- Finding a stream does not leave 32 bits, and takes a part of the metadata that is there. -/
lemma checkedStream?_eq {metadata : ByteArray} {root : MetadataRoot}
    (h : ofBytes metadata = .ok root) (name : String) :
    root.checkedStream? metadata name = some (root.stream? metadata name) := by
  unfold checkedStream? stream?
  cases hheader : root.header? name with
  | none => rfl
  | some header =>
    obtain ⟨hend, hwithin⟩ := stream_fits h header (List.mem_of_find?_eq_some hheader)
    simp only [add_of_lt hend, Option.bind_eq_bind, Option.bind_some,
      part_of_le (Nat.le_add_right _ _) hwithin]
    rfl

/-- A stream has less bytes than 32 bits can number. -/
lemma size_stream_lt {metadata : ByteArray} {root : MetadataRoot} (h : ofBytes metadata = .ok root)
    {name : String} {stream : ByteArray} (hstream : root.stream? metadata name = some stream) :
    stream.size < 2 ^ 32 := by
  obtain ⟨header, hheader, rfl⟩ := Option.map_eq_some_iff.mp hstream
  obtain ⟨hend, -⟩ := stream_fits h header (List.mem_of_find?_eq_some hheader)
  rw [ByteArray.size_extract]
  omega

end MetadataRoot

end TypeInventory
