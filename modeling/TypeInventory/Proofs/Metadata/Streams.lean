import TypeInventory.Proofs.Text.Utf8
import TypeInventory.Proofs.Written.Root

set_option relaxedAutoImplicit false
set_option autoImplicit false

/-!
# The root and its streams

The root of metadata declares streams by headers of different lengths, behind a version of any
length. This module has both sides of reading it. A root that was written is read back, header by
header, exactly when the streams that it declares lie within the metadata. And whatever metadata a
root was read from, its streams are found by name: the first stream of a name, with all of its
bytes.

## Main definitions

* `StreamHeader.LiesIn` — streams within the metadata.
* `RootSource`, `RootSource.image` — what a root is written from, and metadata that start with it.
* `MetadataRoot.FindsStreams` — what looking for streams by their names gives.

## Main results

* `RootSource.ofBytes_image_eq_ok_iff` — when a written root is read back.
* `RootSource.run_read_image` — how far its headers are passed over.
* `MetadataRoot.findsStreams_of_ofBytes` — how the streams of a root are found.
* `MetadataRoot.roots_and_streams` — all of this.
-/

namespace TypeInventory

/-- The stream ends within the metadata, and its end is a number of 32 bits. -/
def StreamHeader.LiesIn (header : StreamHeader) (metadata : ByteArray) : Prop :=
  header.offset + header.size < 2 ^ 32 ∧ header.offset + header.size ≤ metadata.size

instance (header : StreamHeader) (metadata : ByteArray) : Decidable (header.LiesIn metadata) :=
  inferInstanceAs (Decidable (_ ∧ _))

/-! ## Written roots -/

/-- The length of a stream header: two numbers, and the name with a zero behind it, filled up to a
multiple of four. -/
def StreamHeader.encodedLength (header : StreamHeader) : ℕ :=
  8 + (header.name.utf8ByteSize + 1 + 3) / 4 * 4

/-- What a root is written from. -/
structure RootSource where
  /-- The version of the runtime. -/
  version : String
  /-- How many zeros stand behind the version. -/
  padding : ℕ
  /-- The headers of the streams. -/
  headers : List StreamHeader
deriving DecidableEq, Repr

namespace RootSource

/-- What can be written. Texts end at a zero, so that there is none in them. -/
structure Fits (s : RootSource) : Prop where
  /-- There is no zero in the version. -/
  version : '\x00' ∉ s.version.toList
  /-- The version takes a number of bytes that is written with 32 bits. -/
  versionLength : s.version.utf8ByteSize + s.padding < 2 ^ 32
  /-- There is a stream. -/
  one : 1 ≤ s.headers.length
  /-- The number of streams is written with 16 bits. -/
  count : s.headers.length ≤ 65535
  /-- Names have no zero in them, and at most 31 bytes. -/
  names : ∀ header ∈ s.headers, '\x00' ∉ header.name.toList ∧ header.name.utf8ByteSize ≤ 31

/-- The bytes of the version. -/
def versionBytes (s : RootSource) : List UInt8 :=
  s.version.toUTF8.data.toList ++ List.replicate s.padding 0

/-- Metadata that start with the root; the streams lie somewhere in it. -/
def image (s : RootSource) (rest : List UInt8) : ByteArray :=
  ⟨(rootBytes s.versionBytes s.headers.length ++ (headersBytes s.headers ++ rest)).toArray⟩

/-- Where a header starts, by those in front of it. -/
def headerPlace (s : RootSource) (front : List StreamHeader) : ℕ :=
  20 + s.version.utf8ByteSize + s.padding + (front.map StreamHeader.encodedLength).sum

section Written

variable {s : RootSource}

lemma length_versionBytes (s : RootSource) :
    s.versionBytes.length = s.version.utf8ByteSize + s.padding := by
  rw [versionBytes, List.length_append, List.length_replicate, Text.length_toUTF8]

/-- The version ends where its padding starts. -/
lemma beforeZero_versionBytes (h : s.Fits) :
    beforeZero s.versionBytes = s.version.toUTF8.data.toList := by
  have hzero : 0 ∉ s.version.toUTF8.data.toList := zero_notMem_toUTF8 h.version
  rw [versionBytes]
  cases s.padding with
  | zero =>
    rw [List.replicate_zero, List.append_nil, beforeZero, List.takeWhile_eq_self_iff]
    intro b hb
    rw [bne_iff_ne]
    rintro rfl
    exact hzero hb
  | succ n => rw [List.replicate_succ, beforeZero_append hzero]

/-- The names that can be written are read back. -/
lemma Fits.isStreamName (h : s.Fits) {header : StreamHeader} (hheader : header ∈ s.headers) :
    IsStreamName header.name := by
  obtain ⟨hzero, hlength⟩ := h.names header hheader
  refine ⟨?_, zero_notMem_toUTF8 hzero, Text.repairUtf8_toUTF8 header.name⟩
  rw [Text.length_toUTF8]
  omega

/-- A header takes as many bytes as it says. -/
lemma length_streamHeaderBytes_name (header : StreamHeader) :
    (streamHeaderBytes header.offset header.size header.name).length = header.encodedLength := by
  rw [length_streamHeaderBytes, Text.length_toUTF8]
  rfl

lemma length_headersBytes (headers : List StreamHeader) :
    (headersBytes headers).length = (headers.map StreamHeader.encodedLength).sum := by
  induction headers with
  | nil => rfl
  | cons header headers ih =>
    rw [headersBytes_cons, List.length_append, length_streamHeaderBytes_name, ih, List.map_cons,
      List.sum_cons]

/-- The metadata from a header on. -/
lemma drop_image {front back : List StreamHeader} {header : StreamHeader}
    (hheaders : s.headers = front ++ header :: back) (rest : List UInt8) :
    (s.image rest).data.toList.drop (s.headerPlace front) =
      streamHeaderBytes header.offset header.size header.name ++ (headersBytes back ++ rest) := by
  have hplace : s.headerPlace front =
      (rootBytes s.versionBytes s.headers.length ++ headersBytes front).length := by
    rw [List.length_append, length_rootBytes, length_headersBytes, length_versionBytes,
      headerPlace]
    omega
  have himage : (s.image rest).data.toList =
      (rootBytes s.versionBytes s.headers.length ++ headersBytes front) ++
        (streamHeaderBytes header.offset header.size header.name ++
          (headersBytes back ++ rest)) := by
    have hsplit : headersBytes s.headers = headersBytes front ++
        (streamHeaderBytes header.offset header.size header.name ++ headersBytes back) := by
      rw [hheaders, headersBytes, List.flatMap_append, List.flatMap_cons]
      rfl
    change rootBytes s.versionBytes s.headers.length ++ (headersBytes s.headers ++ rest) = _
    rw [hsplit]
    simp only [List.append_assoc]
  rw [himage, hplace, List.drop_left]

/-- **Each header of a written root is read back**, and passed over with its padding. -/
lemma run_read_image (h : s.Fits) {front back : List StreamHeader} {header : StreamHeader}
    (hheaders : s.headers = front ++ header :: back) (rest : List UInt8)
    (hoffset : header.offset < 2 ^ 32) (hsize : header.size < 2 ^ 32) :
    StreamHeader.read.run ⟨s.image rest, s.headerPlace front⟩ =
      .ok header ⟨s.image rest, s.headerPlace front + header.encodedLength⟩ := by
  have hname : IsStreamName header.name := h.isStreamName (by simp [hheaders])
  have hdrop := drop_image hheaders rest
  rw [StreamHeader.run_read_of_isThere (isThere_of_drop hname hdrop),
    headerAt_of_drop hname hoffset hsize hdrop, lengthAt_of_drop hname hdrop,
    length_streamHeaderBytes_name]

/-- **A written root is read back** exactly when the streams that it declares lie within the
metadata. -/
lemma ofBytes_image_eq_ok_iff (h : s.Fits) (rest : List UInt8) :
    MetadataRoot.ofBytes (s.image rest) = .ok ⟨1, 1, s.version, s.headers⟩ ↔
      ∀ header ∈ s.headers, header.LiesIn (s.image rest) := by
  refine ⟨fun hread => MetadataRoot.stream_fits hread, fun hfit => ?_⟩
  have hversion : s.versionBytes.length < 2 ^ 32 := by
    rw [length_versionBytes]
    exact h.versionLength
  have hone := h.one
  have hcount := h.count
  rw [MetadataRoot.ofBytes_headersBytes rfl hversion hone (by omega)
    (fun header hheader => h.isStreamName hheader) hfit, beforeZero_versionBytes h,
    Text.repairUtf8_toUTF8]

end Written

end RootSource

/-! ## Finding streams -/

namespace MetadataRoot

/-- Streams are found by their names in the metadata. -/
structure FindsStreams (root : MetadataRoot) (metadata : ByteArray) : Prop where
  /-- All streams lie within the metadata. -/
  within : ∀ header ∈ root.streams, header.LiesIn metadata
  /-- Finding a stream does not leave 32 bits, and takes a part of the metadata that is there. -/
  checked : ∀ name, root.checkedStream? metadata name = some (root.stream? metadata name)
  /-- The first stream of a name is found, with all of its bytes. -/
  found : ∀ front header back, root.streams = front ++ header :: back →
    (∀ other ∈ front, other.name ≠ header.name) →
      ∃ stream, root.stream? metadata header.name = some stream ∧ stream.size = header.size ∧
        stream.data.toList = (metadata.data.toList.drop header.offset).take header.size
  /-- Nothing is found only if there is no stream of the name. -/
  absent : ∀ name,
    root.stream? metadata name = none ↔ ∀ header ∈ root.streams, header.name ≠ name

/-- **The streams of a root are found by their names** in the metadata that it was read from.

**Proof sketch.** Reading the root has checked each stream, so that the part of the metadata that it
names is there as a whole. -/
lemma findsStreams_of_ofBytes {metadata : ByteArray} {root : MetadataRoot}
    (h : ofBytes metadata = .ok root) : root.FindsStreams metadata where
  within := stream_fits h
  checked := checkedStream?_eq h
  found front header back hstreams hfront := by
    have hfirst : root.header? header.name = some header := by
      rw [header?, hstreams, List.find?_append, List.find?_eq_none.mpr (by simpa using hfront),
        Option.none_or, List.find?_cons_of_pos (by simp)]
    obtain ⟨-, hwithin⟩ := stream_fits h header (by simp [hstreams])
    refine ⟨_, by rw [stream?, hfirst, Option.map_some], ?_, ?_⟩
    · rw [ByteArray.size_extract]
      omega
    · rw [ByteArray.data_extract, Array.toList_extract, List.extract_eq_take_drop,
        Nat.add_sub_cancel_left]
  absent name := by
    rw [stream?, Option.map_eq_none_iff, header?, List.find?_eq_none]
    simp

/-- **A root is read back, and its streams are found.** Let a root be written from a version and
from any stream headers that can be written, with anything behind them. Reading it gives this
version and these headers in order, exactly when the streams lie within the metadata; each header is
passed over by eight bytes and its name with a zero, rounded up to a multiple of four. Whenever any
bytes are read as a root, all streams that it declares lie within them, the first stream of a name
is found with exactly the bytes that its header says, and nothing is found only if no header has the
name.

**Proof sketch.** Version and names end at their first zero, and UTF-8 needs no repair, so each
header is read where the one before it ends. The check that the streams lie within the metadata is
the last thing that can fail, and it is what finding them relies on. -/
theorem roots_and_streams :
    (∀ (source : RootSource) (rest : List UInt8), source.Fits →
      (ofBytes (source.image rest) = .ok ⟨1, 1, source.version, source.headers⟩ ↔
        ∀ header ∈ source.headers, header.LiesIn (source.image rest)) ∧
      ∀ front header back, source.headers = front ++ header :: back →
        header.offset < 2 ^ 32 → header.size < 2 ^ 32 →
          StreamHeader.read.run ⟨source.image rest, source.headerPlace front⟩ =
            .ok header
              ⟨source.image rest,
                source.headerPlace front + (8 + (header.name.utf8ByteSize + 1 + 3) / 4 * 4)⟩) ∧
    ∀ (metadata : ByteArray) (root : MetadataRoot), ofBytes metadata = .ok root →
      root.FindsStreams metadata := by
  refine ⟨fun source rest hfits => ⟨?_, ?_⟩, fun metadata root hread => ?_⟩
  · exact source.ofBytes_image_eq_ok_iff hfits rest
  · intro front header back hheaders hoffset hsize
    exact source.run_read_image hfits hheaders rest hoffset hsize
  · exact findsStreams_of_ofBytes hread

/-- A root with two streams of one name. Its version has two zeros behind it. -/
def repeatedStream : RootSource where
  version := "v4"
  padding := 2
  headers := [⟨68, 4, "#~"⟩, ⟨72, 2, "#Strings"⟩, ⟨0, 4, "#~"⟩]

/-- The law for a root with two streams of one name, and two streams behind it. -/
theorem roots_and_streams_repeatedStream :
    repeatedStream.Fits ∧
      ofBytes (repeatedStream.image [1, 2, 3, 4, 0, 65]) =
        .ok ⟨1, 1, "v4", repeatedStream.headers⟩ ∧
      StreamHeader.read.run ⟨repeatedStream.image [1, 2, 3, 4, 0, 65], 36⟩ =
        .ok ⟨72, 2, "#Strings"⟩ ⟨repeatedStream.image [1, 2, 3, 4, 0, 65], 56⟩ ∧
      ∃ stream,
        (⟨1, 1, "v4", repeatedStream.headers⟩ : MetadataRoot).stream?
          (repeatedStream.image [1, 2, 3, 4, 0, 65]) "#~" = some stream ∧
        stream.data.toList = [1, 2, 3, 4] := by
  have hfits : repeatedStream.Fits :=
    ⟨by decide, by decide, by decide, by decide, by decide⟩
  obtain ⟨hwritten, hfound⟩ := roots_and_streams
  obtain ⟨hread, hskipped⟩ := hwritten repeatedStream [1, 2, 3, 4, 0, 65] hfits
  have hroot := hread.mpr (by decide)
  obtain ⟨stream, hstream, -, hbytes⟩ := (hfound _ _ hroot).found [] _ _ rfl (by simp)
  exact ⟨hfits, hroot, hskipped [_] _ _ rfl (by decide) (by decide), stream, hstream, hbytes⟩

end MetadataRoot

end TypeInventory
