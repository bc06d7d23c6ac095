import TypeInventory.Metadata.Heap
import TypeInventory.Proofs.Bytes.Reading

set_option relaxedAutoImplicit false
set_option autoImplicit false

/-!
# Readers that look only at what they pass over

What a reader gives depends on the bytes that it passes over, and where it fails also on where the
data end. All other bytes may be replaced without it noticing. For the blobs of a heap this means
that each one is safe from damage to the others.

## Main definitions

* `Reader.stop` — where a reader stops, whether it succeeds or fails.
* `Reader.IsLocal` — readers that look only at what they pass over.
* `BlobHeap.entryStop` — where the entry at a place of a heap stops.

## Main results

* `Reader.isLocal_bind` — local readers in a row.
* `BlobHeap.get_eq_of_sameEntry` — a blob depends only on its own entry.
-/

namespace TypeInventory

namespace Reader

variable {α β : Type}

/-- The cursor that a reader leaves, whether it succeeds or fails. -/
def left : EStateM.Result Fault Cursor α → Cursor
  | .ok _ c => c
  | .error _ c => c

/-- The same result, with other bytes under the cursor. -/
def withData (data : ByteArray) : EStateM.Result Fault Cursor α → EStateM.Result Fault Cursor α
  | .ok a c => .ok a ⟨data, c.pos⟩
  | .error e c => .error e ⟨data, c.pos⟩

/-- Where a reader stops that starts at a cursor. -/
def stop (r : Reader α) (c : Cursor) : ℕ :=
  (left (r.run c)).pos

/-- A reader that looks only at what it passes over: it never moves back, and it gives the same on
data of the same size that have the same bytes between where it starts and where it stops. -/
structure IsLocal (r : Reader α) : Prop where
  /-- The bytes stay as they are. -/
  keeps : ∀ c, (left (r.run c)).data = c.data
  /-- The cursor does not move back. -/
  moves : ∀ c, c.pos ≤ r.stop c
  /-- The bytes that are passed over decide. -/
  agrees : ∀ (c : Cursor) (data : ByteArray), data.size = c.data.size →
    (∀ place, c.pos ≤ place → place < r.stop c → data[place]? = c.data[place]?) →
      r.run ⟨data, c.pos⟩ = withData data (r.run c)

/-- A value without reading. -/
lemma isLocal_pure (a : α) : (pure a : Reader α).IsLocal where
  keeps _ := rfl
  moves _ := Nat.le_refl _
  agrees _ _ _ _ := rfl

/-- A failure without reading. -/
lemma isLocal_throw (e : Fault) : (throw e : Reader α).IsLocal where
  keeps _ := rfl
  moves _ := Nat.le_refl _
  agrees _ _ _ _ := rfl

/-- A byte. -/
lemma isLocal_byte : byte.IsLocal := by
  refine ⟨fun c => ?_, fun c => ?_, fun c data hsize hsame => ?_⟩
  · rw [run_byte_eq_dite]
    split_ifs <;> rfl
  · rw [stop, run_byte_eq_dite]
    split_ifs
    · exact Nat.le_succ _
    · exact Nat.le_refl _
  · rw [stop] at hsame
    rw [run_byte_eq_dite] at hsame ⊢
    rw [run_byte_eq_dite]
    by_cases h : c.pos < c.data.size
    · have h' : c.pos < data.size := hsize ▸ h
      rw [dif_pos h] at hsame ⊢
      rw [dif_pos h']
      have hbyte := hsame c.pos (Nat.le_refl _) (Nat.lt_succ_self _)
      rw [getElem?_pos data c.pos h', getElem?_pos c.data c.pos h, Option.some.injEq] at hbyte
      rw [withData]
      exact congrArg (EStateM.Result.ok · _) hbyte
    · have h' : ¬c.pos < data.size := hsize ▸ h
      rw [dif_neg h, dif_neg h']
      rfl

/-- Some bytes. -/
lemma isLocal_bytes (n : ℕ) : (bytes n).IsLocal := by
  refine ⟨fun c => ?_, fun c => ?_, fun c data hsize hsame => ?_⟩
  · rw [run_bytes]
    split_ifs <;> rfl
  · rw [stop, run_bytes]
    split_ifs
    · exact Nat.le_add_right _ _
    · exact Nat.le_refl _
  · rw [stop] at hsame
    rw [run_bytes] at hsame ⊢
    rw [run_bytes]
    simp only [hsize]
    split_ifs at hsame ⊢ with h
    · have hextract : data.extract c.pos (c.pos + n) = c.data.extract c.pos (c.pos + n) := by
        apply ByteArray.ext_getElem
        · simp [hsize]
        · intro i hi hi'
          rw [ByteArray.getElem_extract hi, ByteArray.getElem_extract hi']
          rw [ByteArray.size_extract] at hi hi'
          have hbyte := hsame (c.pos + i) (Nat.le_add_right _ _) (by simp only [left]; omega)
          rwa [getElem?_pos data (c.pos + i) (by omega),
            getElem?_pos c.data (c.pos + i) (by omega), Option.some.injEq] at hbyte
      rw [hextract]
      rfl
    · rfl

/-- **Local readers in a row are local.** The second one starts where the first one stops, so what
both pass over is what one passes over and then the other. -/
lemma isLocal_bind {x : Reader α} {f : α → Reader β} (hx : x.IsLocal) (hf : ∀ a, (f a).IsLocal) :
    (x >>= f).IsLocal := by
  have hkeeps : ∀ c, (left ((x >>= f).run c)).data = c.data := by
    intro c
    have hdata := hx.keeps c
    rw [EStateM.run_bind]
    cases hrun : x.run c with
    | error e c₁ => rwa [hrun] at hdata
    | ok a c₁ =>
      rw [hrun] at hdata
      exact ((hf a).keeps c₁).trans hdata
  have hmoves : ∀ c, x.stop c ≤ (x >>= f).stop c := by
    intro c
    rw [stop, stop, EStateM.run_bind]
    cases hrun : x.run c with
    | error e c₁ => exact Nat.le_refl _
    | ok a c₁ => exact (hf a).moves c₁
  refine ⟨hkeeps, fun c => Nat.le_trans (hx.moves c) (hmoves c), fun c data hsize hsame => ?_⟩
  have hfirst := hx.agrees c data hsize fun place hstart hlt =>
    hsame place hstart (Nat.lt_of_lt_of_le hlt (hmoves c))
  have hmove := hx.moves c
  have hdata := hx.keeps c
  rw [EStateM.run_bind, hfirst]
  rw [stop, EStateM.run_bind] at hsame
  rw [stop] at hmove
  rw [EStateM.run_bind]
  cases hrun : x.run c with
  | error e c₁ => rfl
  | ok a c₁ =>
    rw [hrun] at hsame hmove hdata
    change c₁.data = c.data at hdata
    refine (hf a).agrees c₁ data (hdata ▸ hsize) fun place hstart hlt => ?_
    rw [hdata]
    exact hsame place (Nat.le_trans hmove hstart) hlt

/-- A compressed integer. -/
lemma isLocal_compressed : compressed.IsLocal := by
  refine isLocal_bind isLocal_byte fun lead => ?_
  simp only
  split_ifs
  · exact isLocal_pure _
  · exact isLocal_bind isLocal_byte fun _ => isLocal_pure _
  · exact isLocal_bind isLocal_byte fun _ => isLocal_bind isLocal_byte fun _ =>
      isLocal_bind isLocal_byte fun _ => isLocal_pure _
  · exact isLocal_throw _

end Reader

/-! ## Entries of a heap -/

namespace BlobHeap

/-- A blob. -/
lemma isLocal_blob : blob.IsLocal :=
  Reader.isLocal_bind Reader.isLocal_compressed Reader.isLocal_bytes

/-- Where the entry at a place of a heap stops, as far as it is there. -/
def entryStop (heap : BlobHeap) (index : ℕ) : ℕ :=
  blob.stop ⟨heap.data, index⟩

/-- Two heaps have the same entry at a place: the bytes up to where it stops are the same. -/
def SameEntry (heap heap' : BlobHeap) (index : ℕ) : Prop :=
  ∀ place < heap.entryStop index, index ≤ place → heap'.data[place]? = heap.data[place]?

instance (heap heap' : BlobHeap) (index : ℕ) : Decidable (heap.SameEntry heap' index) :=
  inferInstanceAs (Decidable (∀ place < _, _ → _))

/-- **A blob depends only on its own entry**, as long as the heap does not end elsewhere. -/
lemma get_eq_of_sameEntry {heap heap' : BlobHeap} {index : ℕ}
    (hsize : heap'.data.size = heap.data.size) (h : heap.SameEntry heap' index) :
    heap'.get index = heap.get index := by
  have hrun := isLocal_blob.agrees ⟨heap.data, index⟩ heap'.data hsize
    fun place hstart hstop => h place hstop hstart
  unfold get
  simp only at hrun
  rw [hrun]
  cases blob.run ⟨heap.data, index⟩ <;> rfl

end BlobHeap

end TypeInventory
