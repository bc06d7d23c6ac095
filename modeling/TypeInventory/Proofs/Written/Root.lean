import TypeInventory.Proofs.Checked.Root
import TypeInventory.Proofs.Written.Heaps

set_option relaxedAutoImplicit false
set_option autoImplicit false

/-!
# Written metadata roots

Metadata are written as a root and a header for each stream. Where the streams are is up to the
headers. They are read back wherever this is, as long as it is in the metadata. Metadata with given
streams have these in the order of their headers; the streams are then found by name, with the bytes
that were written.

## Main definitions

* `paddedBytes` — bytes that are filled up to a multiple of four.
* `streamHeaderBytes`, `rootBytes`, `headersBytes` — a stream header, the root, and all headers.
* `metadataBytes` — metadata with given streams.

## Main results

* `MetadataRoot.ofBytes_headersBytes` — a root with any headers is read back.
* `MetadataRoot.ofBytes_metadataBytes` — the root of written metadata is read back.
* `MetadataRoot.stream?_metadataBytes` — and so are the streams.
-/

namespace TypeInventory

/-! ## Writing -/

/-- Bytes with zeros behind them up to a multiple of four. -/
def paddedBytes (bytes : List UInt8) : List UInt8 :=
  bytes ++ List.replicate ((4 - bytes.length % 4) % 4) 0

/-- The header of a stream: its place, its size, and its name with a zero, filled up to a multiple
of four. -/
def streamHeaderBytes (offset size : ℕ) (name : String) : List UInt8 :=
  littleEndianBytes 4 offset ++ (littleEndianBytes 4 size ++ paddedBytes (stringEntry name))

/-- The headers of streams that lie one behind the other from `offset` on. -/
def streamHeadersBytes : ℕ → List (String × List UInt8) → List UInt8
  | _, [] => []
  | offset, stream :: streams =>
    streamHeaderBytes offset stream.2.length stream.1 ++
      streamHeadersBytes (offset + stream.2.length) streams

/-- The headers of streams, wherever these are. -/
def headersBytes (headers : List StreamHeader) : List UInt8 :=
  headers.flatMap fun header => streamHeaderBytes header.offset header.size header.name

/-- The root up to its stream headers, of which there are `count`: the signature, the version 1.1,
the version of the runtime in `version`, and flags. -/
def rootBytes (version : List UInt8) (count : ℕ) : List UInt8 :=
  littleEndianBytes 4 rootSignature ++ (littleEndianBytes 2 1 ++ (littleEndianBytes 2 1 ++
    (littleEndianBytes 4 0 ++ (littleEndianBytes 4 version.length ++ (version ++
      (littleEndianBytes 2 0 ++ littleEndianBytes 2 count))))))

/-- Where the first stream lies: behind the root and the headers. -/
def firstStream (version : List UInt8) (streams : List (String × List UInt8)) : ℕ :=
  (rootBytes version streams.length).length + (streamHeadersBytes 0 streams).length

/-- Metadata with the given streams. -/
def metadataBytes (version : List UInt8) (streams : List (String × List UInt8)) : List UInt8 :=
  rootBytes version streams.length ++
    (streamHeadersBytes (firstStream version streams) streams ++ streams.flatMap Prod.snd)

/-- The headers of streams that lie one behind the other from `offset` on, as they are read. -/
def streamHeaders : ℕ → List (String × List UInt8) → List StreamHeader
  | _, [] => []
  | offset, stream :: streams =>
    ⟨offset, stream.2.length, stream.1⟩ :: streamHeaders (offset + stream.2.length) streams

lemma length_paddedBytes (bytes : List UInt8) :
    (paddedBytes bytes).length = (bytes.length + 3) / 4 * 4 := by
  rw [paddedBytes, List.length_append, List.length_replicate]
  omega

lemma length_streamHeaderBytes (offset size : ℕ) (name : String) :
    (streamHeaderBytes offset size name).length =
      8 + paddedLength name.toUTF8.data.toList.length := by
  rw [streamHeaderBytes, List.length_append, List.length_append, length_littleEndianBytes,
    length_littleEndianBytes, length_paddedBytes, stringEntry, List.length_append,
    List.length_singleton, paddedLength]
  omega

/-- The headers take as many bytes wherever the streams lie. -/
lemma length_streamHeadersBytes (streams : List (String × List UInt8)) :
    ∀ offset offset', (streamHeadersBytes offset streams).length =
      (streamHeadersBytes offset' streams).length := by
  induction streams with
  | nil => exact fun _ _ => rfl
  | cons stream streams ih =>
    intro offset offset'
    rw [streamHeadersBytes, streamHeadersBytes, List.length_append, List.length_append,
      length_streamHeaderBytes, length_streamHeaderBytes, ih _ (offset' + stream.2.length)]

lemma headersBytes_cons (header : StreamHeader) (headers : List StreamHeader) :
    headersBytes (header :: headers) =
      streamHeaderBytes header.offset header.size header.name ++ headersBytes headers :=
  List.flatMap_cons

/-! ## Stream headers -/

/-- The names that stream headers give back: at most 31 bytes without a zero, and nothing to
repair. -/
structure IsStreamName (name : String) : Prop where
  length_lt : name.toUTF8.data.toList.length < 32
  zero_notMem : 0 ∉ name.toUTF8.data.toList
  repair : Text.repairUtf8 name.toUTF8.data.toList = name

/-- Bytes without a zero, of some that a zero follows. -/
lemma beforeZero_append {bytes suffix : List UInt8} (h : 0 ∉ bytes) :
    beforeZero (bytes ++ 0 :: suffix) = bytes := by
  have hall : ∀ b ∈ bytes, (b != 0) = true := by
    intro b hb
    rw [bne_iff_ne]
    rintro rfl
    exact h hb
  rw [beforeZero, List.takeWhile_append_of_pos hall, List.takeWhile_cons_of_neg (by simp),
    List.append_nil]

section Headers

variable {data : ByteArray} {place offset size : ℕ} {name : String} {suffix : List UInt8}

/-- A list from a further place on. -/
lemma drop_add_of_append {α : Type} {l front back : List α} {n : ℕ} (h : l.drop n = front ++ back) :
    l.drop (n + front.length) = back := by
  rw [← List.drop_drop, h, List.drop_left]

/-- The bytes behind a place. -/
lemma size_sub_of_drop {bytes : List UInt8} (h : data.data.toList.drop place = bytes) :
    data.size - place = bytes.length := by
  rw [← h, List.length_drop, Array.length_toList, ByteArray.size_data]

/-- The area in which the name of a written stream header is looked for: the name, a zero, and
more. -/
lemma exists_area_eq (hname : IsStreamName name)
    (h : data.data.toList.drop place = streamHeaderBytes offset size name ++ suffix) :
    ∃ more, (data.extract (place + 8) (place + 40)).data.toList =
      name.toUTF8.data.toList ++ 0 :: more := by
  rw [streamHeaderBytes, List.append_assoc, List.append_assoc] at h
  have hback := drop_add_of_append (drop_add_of_append h)
  rw [length_littleEndianBytes, length_littleEndianBytes, paddedBytes, stringEntry,
    List.append_assoc, List.append_assoc, List.singleton_append] at hback
  have hlength := hname.length_lt
  obtain ⟨k, hk⟩ := Nat.exists_eq_add_of_lt hlength
  rw [ByteArray.data_extract, Array.toList_extract, List.extract_eq_take_drop, hback,
    show place + 40 - (place + 8) = name.toUTF8.data.toList.length + (k + 1) by omega,
    List.take_length_add_append, List.take_succ_cons]
  exact ⟨_, rfl⟩

/-- A written stream header is there. -/
lemma isThere_of_drop (hname : IsStreamName name)
    (h : data.data.toList.drop place = streamHeaderBytes offset size name ++ suffix) :
    StreamHeader.IsThere data place := by
  obtain ⟨more, harea⟩ := exists_area_eq hname h
  have hroom := size_sub_of_drop h
  rw [List.length_append, length_streamHeaderBytes, paddedLength] at hroom
  refine ⟨by omega, ?_⟩
  rw [harea, beforeZero_append hname.zero_notMem, List.length_append, List.length_cons]
  omega

/-- A written stream header says what was written. -/
lemma headerAt_of_drop (hname : IsStreamName name) (hoffset : offset < 2 ^ 32)
    (hsize : size < 2 ^ 32)
    (h : data.data.toList.drop place = streamHeaderBytes offset size name ++ suffix) :
    StreamHeader.headerAt data place = ⟨offset, size, name⟩ := by
  obtain ⟨more, harea⟩ := exists_area_eq hname h
  rw [streamHeaderBytes, List.append_assoc, List.append_assoc] at h
  have hback := drop_add_of_append h
  rw [length_littleEndianBytes] at hback
  rw [StreamHeader.headerAt, numberAt_of_drop h hoffset, numberAt_of_drop hback hsize, harea,
    beforeZero_append hname.zero_notMem, hname.repair]

/-- A written stream header is as long as it was written. -/
lemma lengthAt_of_drop (hname : IsStreamName name)
    (h : data.data.toList.drop place = streamHeaderBytes offset size name ++ suffix) :
    StreamHeader.lengthAt data place = (streamHeaderBytes offset size name).length := by
  obtain ⟨more, harea⟩ := exists_area_eq hname h
  rw [StreamHeader.lengthAt, harea, beforeZero_append hname.zero_notMem, length_streamHeaderBytes]

end Headers

/-- **Stream headers are read back**, if the streams that they declare lie within the data.

**Proof sketch.** By induction on the headers, each of which is where the one before it ends. -/
lemma run_collect_headersBytes {data : ByteArray} {suffix : List UInt8}
    {headers : List StreamHeader} (hnames : ∀ header ∈ headers, IsStreamName header.name)
    (hfit : ∀ header ∈ headers, header.offset + header.size < 2 ^ 32 ∧
      header.offset + header.size ≤ data.size) :
    ∀ place, data.data.toList.drop place = headersBytes headers ++ suffix →
      (collect StreamHeader.readWithin headers.length).run ⟨data, place⟩ =
        .ok headers ⟨data, place + (headersBytes headers).length⟩ := by
  induction headers with
  | nil => exact fun _ _ => rfl
  | cons header headers ih =>
    intro place h
    rw [List.forall_mem_cons] at hnames hfit
    obtain ⟨hname, hnames⟩ := hnames
    obtain ⟨⟨hoverflow, hwithin⟩, hfit⟩ := hfit
    rw [headersBytes_cons, List.append_assoc] at h
    have hheader : StreamHeader.headerAt data place = header :=
      headerAt_of_drop hname (by omega) (by omega) h
    have hread : StreamHeader.readWithin.run ⟨data, place⟩ =
        .ok header
          ⟨data, place + (streamHeaderBytes header.offset header.size header.name).length⟩ := by
      rw [StreamHeader.run_readWithin_of_isThere (isThere_of_drop hname h), hheader,
        lengthAt_of_drop hname h, if_neg (by omega), if_neg (by omega)]
    have htail := ih hnames hfit _ (drop_add_of_append h)
    rw [List.length_cons, collect_succ, EStateM.run_bind, hread]
    simp only [map_eq_pure_bind]
    rw [EStateM.run_bind, htail, headersBytes_cons, List.length_append, Nat.add_assoc]
    rfl

/-- Streams that lie one behind the other have headers as all streams have. -/
lemma headersBytes_streamHeaders (streams : List (String × List UInt8)) (offset : ℕ) :
    headersBytes (streamHeaders offset streams) = streamHeadersBytes offset streams := by
  induction streams generalizing offset with
  | nil => rfl
  | cons stream streams ih =>
    rw [streamHeaders, headersBytes_cons, ih]
    rfl

lemma length_streamHeaders (streams : List (String × List UInt8)) (offset : ℕ) :
    (streamHeaders offset streams).length = streams.length := by
  induction streams generalizing offset with
  | nil => rfl
  | cons stream streams ih => rw [streamHeaders, List.length_cons, List.length_cons, ih]

/-- A stream that lies among others ends before they all end. -/
lemma bounds_of_mem_streamHeaders {streams : List (String × List UInt8)} {offset : ℕ}
    {header : StreamHeader} (h : header ∈ streamHeaders offset streams) :
    (∃ stream ∈ streams, header.name = stream.1) ∧
      header.offset + header.size ≤ offset + (streams.flatMap Prod.snd).length := by
  induction streams generalizing offset with
  | nil => cases h
  | cons stream streams ih =>
    rw [List.flatMap_cons, List.length_append]
    rcases List.mem_cons.mp h with rfl | h
    · exact ⟨⟨stream, List.mem_cons_self, rfl⟩, by simp only; omega⟩
    · obtain ⟨⟨other, hother, hname⟩, hend⟩ := ih h
      exact ⟨⟨other, List.mem_cons_of_mem stream hother, hname⟩, by omega⟩

/-! ## The root -/

section Root

variable {version : List UInt8} {streams : List (String × List UInt8)}

lemma length_rootBytes (version : List UInt8) (count : ℕ) :
    (rootBytes version count).length = 16 + version.length + 4 := by
  simp only [rootBytes, List.length_append, length_littleEndianBytes]
  omega

lemma length_metadataBytes (version : List UInt8) (streams : List (String × List UInt8)) :
    (metadataBytes version streams).length =
      firstStream version streams + (streams.flatMap Prod.snd).length := by
  rw [metadataBytes, firstStream, List.length_append, List.length_append,
    length_streamHeadersBytes streams _ 0, Nat.add_assoc]

namespace MetadataRoot

/-- **A root is read back with its stream headers**, if the streams lie within the metadata.

**Proof sketch.** Each of its parts lies where those before it end, and the headers follow. -/
lemma ofBytes_headersBytes {headers : List StreamHeader} {data : ByteArray} {rest : List UInt8}
    (hdata : data.data.toList = rootBytes version headers.length ++ (headersBytes headers ++ rest))
    (hversion : version.length < 2 ^ 32) (hone : 0 < headers.length)
    (hcount : headers.length < 2 ^ 16) (hnames : ∀ header ∈ headers, IsStreamName header.name)
    (hfit : ∀ header ∈ headers, header.offset + header.size < 2 ^ 32 ∧
      header.offset + header.size ≤ data.size) :
    ofBytes data = .ok ⟨1, 1, Text.repairUtf8 (beforeZero version), headers⟩ := by
  have hhead := length_rootBytes version headers.length
  have hsize : data.size =
      (rootBytes version headers.length).length + (headersBytes headers ++ rest).length := by
    rw [← List.length_append, ← hdata, Array.length_toList, ByteArray.size_data]
  have hall : data.data.toList.drop 0 =
      rootBytes version headers.length ++ (headersBytes headers ++ rest) := hdata
  have hheaders : data.data.toList.drop (16 + version.length + 4) =
      headersBytes headers ++ rest := by
    have h := drop_add_of_append hall
    rw [hhead, Nat.zero_add] at h
    exact h
  rw [rootBytes] at hall
  simp only [List.append_assoc] at hall
  have hmajor := drop_add_of_append hall
  have hminor := drop_add_of_append hmajor
  have hflags := drop_add_of_append hminor
  have hversionLength := drop_add_of_append hflags
  have hversionBytes := drop_add_of_append hversionLength
  have hreserved := drop_add_of_append hversionBytes
  have hstreams := drop_add_of_append hreserved
  simp only [length_littleEndianBytes, Nat.zero_add, Nat.reduceAdd]
    at hmajor hminor hversionLength hversionBytes hstreams
  have hvl : versionLength data = version.length :=
    numberAt_of_drop hversionLength (by omega)
  have hvb : versionBytes data = version := by
    rw [versionBytes, hvl]
    exact Cursor.toList_extract (c := ⟨data, 16⟩) hversionBytes
  have hsc : streamCount data = headers.length := by
    rw [streamCount, hvl]
    exact numberAt_of_drop hstreams (by omega)
  have hcollect := run_collect_headersBytes hnames hfit (16 + version.length + 4) hheaders
  rw [ofBytes_of_le (by omega), ofHead, numberAt_of_drop hall (by decide),
    numberAt_of_drop hmajor (by decide), numberAt_of_drop hminor (by decide), hvl, hvb, hsc,
    if_neg (not_not_intro rfl), if_neg (by omega), if_neg (by omega), hcollect]
  rfl

/-- **The root of written metadata is read back.** The streams that the headers declare lie behind
them, up to the end. -/
lemma ofBytes_metadataBytes (hsize : (metadataBytes version streams).length < 2 ^ 32)
    (hnames : ∀ stream ∈ streams, IsStreamName stream.1) (hone : 0 < streams.length)
    (hcount : streams.length < 2 ^ 16) :
    ofBytes ⟨(metadataBytes version streams).toArray⟩ =
      .ok ⟨1, 1, Text.repairUtf8 (beforeZero version),
        streamHeaders (firstStream version streams) streams⟩ := by
  have hlength := length_metadataBytes version streams
  have hhead := length_rootBytes version streams.length
  have hfirst : (rootBytes version streams.length).length ≤ firstStream version streams :=
    Nat.le_add_right _ _
  have hcounted := length_streamHeaders streams (firstStream version streams)
  have hdatasize : (⟨(metadataBytes version streams).toArray⟩ : ByteArray).size =
      (metadataBytes version streams).length :=
    List.size_toArray
  apply ofBytes_headersBytes
  · rw [headersBytes_streamHeaders, hcounted]
    rfl
  · omega
  · omega
  · omega
  · intro header hheader
    obtain ⟨⟨stream, hstream, hname⟩, -⟩ := bounds_of_mem_streamHeaders hheader
    exact hname ▸ hnames stream hstream
  · intro header hheader
    obtain ⟨-, hend⟩ := bounds_of_mem_streamHeaders hheader
    exact ⟨by omega, by omega⟩

/-- The header of the first stream of a name. -/
lemma find?_streamHeaders {front back : List (String × List UInt8)} {name : String}
    {bytes : List UInt8} (hfront : ∀ stream ∈ front, stream.1 ≠ name) (offset : ℕ) :
    (streamHeaders offset (front ++ (name, bytes) :: back)).find?
        (fun header => header.name == name) =
      some ⟨offset + (front.flatMap Prod.snd).length, bytes.length, name⟩ := by
  induction front generalizing offset with
  | nil =>
    rw [List.nil_append, streamHeaders, List.find?_cons_of_pos (by simp)]
    rfl
  | cons stream front ih =>
    have hne : stream.1 ≠ name := hfront stream List.mem_cons_self
    rw [List.cons_append, streamHeaders, List.find?_cons_of_neg (by simpa using hne),
      ih (fun s hs => hfront s (List.mem_cons_of_mem stream hs)), List.flatMap_cons,
      List.length_append, Nat.add_assoc]

/-- **A stream is found by its name**, with the bytes that were written. -/
lemma stream?_metadataBytes {root : MetadataRoot} {front back : List (String × List UInt8)}
    {name : String} {bytes : List UInt8} (hstreams : streams = front ++ (name, bytes) :: back)
    (hroot : root.streams = streamHeaders (firstStream version streams) streams)
    (hfront : ∀ stream ∈ front, stream.1 ≠ name) :
    root.stream? ⟨(metadataBytes version streams).toArray⟩ name = some ⟨bytes.toArray⟩ := by
  have hdrop : (metadataBytes version streams).drop
      (firstStream version streams + (front.flatMap Prod.snd).length) =
        bytes ++ back.flatMap Prod.snd := by
    rw [metadataBytes, ← List.append_assoc, ← List.drop_drop, List.drop_left' ?_, hstreams,
      List.flatMap_append, List.flatMap_cons, List.drop_left]
    rw [firstStream, List.length_append, length_streamHeadersBytes streams _ 0]
  have hextract : (⟨(metadataBytes version streams).toArray⟩ : ByteArray).extract
      (firstStream version streams + (front.flatMap Prod.snd).length)
      (firstStream version streams + (front.flatMap Prod.snd).length + bytes.length) =
        ⟨bytes.toArray⟩ := by
    rw [ByteArray.ext_iff, ← Array.toList_inj]
    exact Cursor.toList_extract (c := ⟨⟨(metadataBytes version streams).toArray⟩, _⟩) hdrop
  have hheader : (streamHeaders (firstStream version streams)
      (front ++ (name, bytes) :: back)).find? (fun header => header.name == name) = some _ :=
    find?_streamHeaders hfront (firstStream version streams)
  rw [← hstreams, ← hroot] at hheader
  rw [stream?, header?, hheader, Option.map_some, hextract]

end MetadataRoot

end Root

end TypeInventory
