import TypeInventory.Metadata.Heap
import TypeInventory.Proofs.Checked.Root

set_option relaxedAutoImplicit false
set_option autoImplicit false

/-!
# The heaps, checked

A string and a blob are read from what is left of their heap behind their place, which may be any
number. A place outside the heap is refused before a part is taken.

## Main definitions

* `StringHeap.checkedGet`, `BlobHeap.checkedGet` — strings and blobs from parts of the heap.
* `Reader.Shifts` — readers that do not see where in the data they stand.

## Main results

* `StringHeap.checkedGet_eq`, `BlobHeap.checkedGet_eq` — reading a string or a blob takes no part of
  the heap that is not there.
-/

namespace TypeInventory

open Checked

/-! ## Strings -/

namespace StringHeap

/-- The string at a place: what is left of the heap up to the first zero. -/
def checkedGet (heap : StringHeap) (index : ℕ) : ExceptT Fault Option String := do
  if heap.data.size ≤ index then
    throw .outOfBounds
  else
    let rest ← part heap.data index heap.data.size
    let length := (beforeZero rest.data.toList).length
    if length = rest.size then
      throw (.malformed (.unreadableString index))
    else
      let bytes ← part rest 0 length
      match String.fromUTF8? bytes with
      | some s => return s
      | none => throw (.malformed (.unreadableString index))

/-- The bytes of the data from a place on. -/
lemma toList_extract_size (data : ByteArray) (place : ℕ) :
    (data.extract place data.size).data.toList = data.data.toList.drop place := by
  have hlength : (data.data.toList.drop place).length = data.size - place := by
    rw [List.length_drop, Array.length_toList, ByteArray.size_data]
  rw [ByteArray.data_extract, Array.toList_extract, List.extract_eq_take_drop,
    List.take_of_length_le (Nat.le_of_eq hlength)]

/-- The search for a zero finds the end of what comes before it. -/
lemma zeroFrom?_eq (data : ByteArray) (n place : ℕ) (h : place + n = data.size) :
    zeroFrom? data n place =
      if (beforeZero (data.data.toList.drop place)).length = n then none
      else some (place + (beforeZero (data.data.toList.drop place)).length) := by
  induction n generalizing place with
  | zero =>
    have hempty : data.data.toList.drop place = [] := by
      rw [List.drop_eq_nil_iff, Array.length_toList, ByteArray.size_data]
      omega
    rw [hempty]
    rfl
  | succ n ih =>
    have hplace : place < data.data.toList.length := by
      rw [Array.length_toList, ByteArray.size_data]
      omega
    have hbyte : data[place]? = some data.data.toList[place] := by
      rw [getElem?_pos data place (by omega)]
      rfl
    rw [zeroFrom?, hbyte, List.drop_eq_getElem_cons hplace]
    by_cases hzero : data.data.toList[place] = 0
    · rw [hzero, if_pos rfl, beforeZero, List.takeWhile_cons_of_neg (by decide)]
      simp
    · have hnonzero : beforeZero (data.data.toList[place] :: data.data.toList.drop (place + 1)) =
          data.data.toList[place] :: beforeZero (data.data.toList.drop (place + 1)) :=
        List.takeWhile_cons_of_pos (by simpa using hzero)
      rw [if_neg (by simpa using hzero), ih (place + 1) (by omega), hnonzero, List.length_cons]
      split_ifs
      · rfl
      · omega
      · omega
      · congr 1
        omega

/-- **Reading a string takes no part of the heap that is not there**, whatever its place. -/
lemma checkedGet_eq (heap : StringHeap) (index : ℕ) :
    heap.checkedGet index = plain (heap.get index) := by
  unfold checkedGet get
  by_cases hinside : index < heap.data.size
  · have hrest : (heap.data.extract index heap.data.size).size = heap.data.size - index := by
      rw [ByteArray.size_extract]
      omega
    rw [if_neg (Nat.not_le.mpr hinside), if_pos hinside,
      part_of_le (Nat.le_of_lt hinside) (Nat.le_refl _), some_bind, toList_extract_size,
      zeroFrom?_eq heap.data (heap.data.size - index) index (by omega), hrest]
    by_cases hopen : (beforeZero (heap.data.data.toList.drop index)).length =
        heap.data.size - index
    · simp only [if_pos hopen]
      rfl
    · have hfront := beforeZero_eq_take (heap.data.data.toList.drop index)
      have hlength : (beforeZero (heap.data.data.toList.drop index)).length ≤
          (heap.data.extract index heap.data.size).size := by
        rw [hfront, List.length_take, List.length_drop, Array.length_toList, ByteArray.size_data,
          hrest]
        exact Nat.min_le_right _ _
      simp only [if_neg hopen]
      rw [part_of_le (Nat.zero_le _) hlength, some_bind, ByteArray.extract_extract, Nat.add_zero,
        Nat.min_eq_left (by omega)]
      cases String.fromUTF8? (heap.data.extract index
        (index + (beforeZero (heap.data.data.toList.drop index)).length)) <;> rfl
  · rw [if_pos (Nat.not_lt.mp hinside), if_neg hinside]
    rfl

end StringHeap

/-! ## Readers that do not see where they stand -/

namespace Reader

variable {α β : Type}

/-- A result in what is left of the data from a place on, as a result in the data. -/
def moved (data : ByteArray) (place : ℕ) :
    EStateM.Result Fault Cursor α → EStateM.Result Fault Cursor α
  | .ok a c => .ok a ⟨data, place + c.pos⟩
  | .error e c => .error e ⟨data, place + c.pos⟩

/-- A reader does the same in the data as in what is left of them from a place on. -/
def Shifts (r : Reader α) : Prop :=
  ∀ (data : ByteArray) (place pos : ℕ), place ≤ data.size →
    r.run ⟨data, place + pos⟩ = moved data place (r.run ⟨data.extract place data.size, pos⟩) ∧
      ∀ c, (∃ a, r.run ⟨data.extract place data.size, pos⟩ = .ok a c) →
        c.data = data.extract place data.size

/-- A value shifts. -/
lemma shifts_pure (a : α) : Shifts (pure a) := by
  intro data place pos _
  refine ⟨rfl, ?_⟩
  rintro c ⟨_, h⟩
  cases h
  rfl

/-- A fault shifts. -/
lemma shifts_throw (e : Fault) : Shifts (throw e : Reader α) := by
  intro data place pos _
  refine ⟨rfl, ?_⟩
  rintro c ⟨_, h⟩
  cases h

/-- Readers that shift do so in a row. -/
lemma shifts_bind {x : Reader α} {f : α → Reader β} (hx : Shifts x) (hf : ∀ a, Shifts (f a)) :
    Shifts (x >>= f) := by
  intro data place pos hplace
  obtain ⟨hrun, hdata⟩ := hx data place pos hplace
  rw [EStateM.run_bind, EStateM.run_bind, hrun]
  cases hx' : x.run ⟨data.extract place data.size, pos⟩ with
  | ok a c =>
    obtain ⟨rest, after⟩ := c
    obtain rfl : rest = data.extract place data.size := hdata _ ⟨a, hx'⟩
    exact hf a data place after hplace
  | error e c =>
    refine ⟨rfl, ?_⟩
    rintro c' ⟨_, h⟩
    cases h

/-- The next byte shifts. -/
lemma shifts_byte : Shifts byte := by
  intro data place pos hplace
  have hsize : (data.extract place data.size).size = data.size - place := by
    rw [ByteArray.size_extract]
    omega
  by_cases h : pos < (data.extract place data.size).size
  · have hdata : place + pos < data.size := by omega
    have hrun : byte.run ⟨data.extract place data.size, pos⟩ =
        .ok (data.extract place data.size)[pos] ⟨data.extract place data.size, pos + 1⟩ :=
      dif_pos h
    have hrun' : byte.run ⟨data, place + pos⟩ = .ok data[place + pos] ⟨data, place + pos + 1⟩ :=
      dif_pos hdata
    rw [hrun, hrun', ByteArray.getElem_extract]
    refine ⟨rfl, ?_⟩
    rintro c ⟨_, hc⟩
    cases hc
    rfl
  · have hrun : byte.run ⟨data.extract place data.size, pos⟩ =
        .error .outOfBounds ⟨data.extract place data.size, pos⟩ :=
      dif_neg h
    have hrun' : byte.run ⟨data, place + pos⟩ = .error .outOfBounds ⟨data, place + pos⟩ :=
      dif_neg (show ¬place + pos < data.size by omega)
    rw [hrun, hrun']
    refine ⟨rfl, ?_⟩
    rintro c ⟨_, hc⟩
    cases hc

/-- A compressed integer shifts. -/
lemma shifts_compressed : Shifts compressed := by
  unfold compressed
  refine shifts_bind shifts_byte fun lead => ?_
  simp only
  split_ifs
  · exact shifts_pure _
  · exact shifts_bind shifts_byte fun second => shifts_pure _
  · refine shifts_bind shifts_byte fun second => ?_
    refine shifts_bind shifts_byte fun third => ?_
    exact shifts_bind shifts_byte fun fourth => shifts_pure _
  · exact shifts_throw _

end Reader

/-! ## Blobs -/

namespace BlobHeap

/-- The blob at a place: its length, read from what is left of the heap, and then its bytes. -/
def checkedGet (heap : BlobHeap) (index : ℕ) : ExceptT Fault Option ByteArray := do
  if heap.data.size ≤ index then
    throw .outOfBounds
  else
    let rest ← part heap.data index heap.data.size
    match Reader.compressed.run ⟨rest, 0⟩ with
    | .error e _ => throw e
    | .ok length c =>
      let start := index + c.pos
      if heap.data.size < start + length then
        throw .outOfBounds
      else
        let bytes ← part heap.data start (start + length)
        return bytes

/-- **Reading a blob takes no part of the heap that is not there**, whatever its place. -/
lemma checkedGet_eq (heap : BlobHeap) (index : ℕ) :
    heap.checkedGet index = plain (heap.get index) := by
  unfold checkedGet get blob
  rw [EStateM.run_bind]
  by_cases hinside : index < heap.data.size
  · obtain ⟨hrun, -⟩ := Reader.shifts_compressed heap.data index 0 (Nat.le_of_lt hinside)
    rw [Nat.add_zero] at hrun
    rw [if_neg (Nat.not_le.mpr hinside), part_of_le (Nat.le_of_lt hinside) (Nat.le_refl _),
      some_bind, hrun]
    cases Reader.compressed.run ⟨heap.data.extract index heap.data.size, 0⟩ with
    | error e c => rfl
    | ok length c =>
      simp only [Reader.moved, Reader.run_bytes]
      by_cases hpast : heap.data.size < index + c.pos + length
      · rw [if_pos hpast, if_neg (Nat.not_le.mpr hpast)]
        rfl
      · rw [if_neg hpast, if_pos (Nat.not_lt.mp hpast),
          part_of_le (Nat.le_add_right _ _) (Nat.not_lt.mp hpast)]
        rfl
  · have hlead : Reader.byte.run ⟨heap.data, index⟩ = .error .outOfBounds ⟨heap.data, index⟩ :=
      dif_neg hinside
    have hrun : Reader.compressed.run ⟨heap.data, index⟩ =
        .error .outOfBounds ⟨heap.data, index⟩ := by
      rw [Reader.compressed, EStateM.run_bind, hlead]
    rw [if_pos (Nat.not_lt.mp hinside), hrun]
    rfl

end BlobHeap

end TypeInventory
