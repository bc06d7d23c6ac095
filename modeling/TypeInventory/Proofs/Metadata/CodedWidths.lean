import TypeInventory.Proofs.Bytes.Written
import TypeInventory.Proofs.Metadata.Geometry

set_option relaxedAutoImplicit false
set_option autoImplicit false

/-!
# The widths of coded indices

A coded index takes as many bits as the largest row number that it may hold, and its tag on top of
them. Whether two bytes are enough is decided by these bits, while the rule of the format speaks of
the number of rows. This module proves that both say the same, that every row of every table that
may be referred to can be written in the chosen width and is read back from it, and that a number
with any other tag is refused.

## Main results

* `Layout.codedWidth_eq_ite` — the width of a coded index by the number of rows.
* `Layout.rowCount_eq_zero_of_not_names` — a table that the mask does not name has no rows.
* `CodedIndex.lt_of_tables_getElem?` — every place among the tables of a kind fits in a tag.
* `Reader.run_coded_of_rest` — what is read in front of a written number.
* `Layout.coded_indices` — all of this for the layout of any stream.
-/

namespace TypeInventory

/-! ## Bits -/

/-- The largest of some numbers is no larger than a bound exactly when none of them is. -/
lemma foldl_max_le_iff {bound first : ℕ} {numbers : List ℕ} :
    numbers.foldl max first ≤ bound ↔ first ≤ bound ∧ ∀ n ∈ numbers, n ≤ bound := by
  induction numbers generalizing first with
  | nil => simp
  | cons n numbers ih => rw [List.foldl_cons, ih, Nat.max_le, List.forall_mem_cons, and_assoc]

namespace CodedKind

/-- A tag takes at least one bit and at most five. -/
lemma tagBits_bounds (kind : CodedKind) : 1 ≤ kind.tagBits ∧ kind.tagBits ≤ 5 := by
  cases kind <;> decide

/-- The bits of a tag are enough for the place of every table. -/
lemma lt_of_tables_getElem? {kind : CodedKind} {tag : ℕ} {t : TableId}
    (h : kind.tables[tag]? = some t) : tag < 2 ^ kind.tagBits := by
  obtain ⟨hlt, -⟩ := List.getElem?_eq_some_iff.mp h
  calc tag ≤ kind.tables.length - 1 := by omega
    _ < 2 ^ kind.tagBits := Nat.lt_log2_self

end CodedKind

namespace Layout

/-! ## Widths -/

section Widths

variable (layout : Layout) (kind : CodedKind)

/-- A bound on the bits of all row numbers, and on the tag with it, is one on the rows.

**Proof sketch.** The largest number of bits, with the tag, is no larger than sixteen exactly when
each number of bits leaves room for the tag (`foldl_max_le_iff`), which is a bound on the number of
rows (`lt_rowBits_iff`). -/
lemma codedBits_le_sixteen_iff :
    layout.codedBits kind ≤ 16 ↔
      ∀ t ∈ kind.tables, layout.rowCount t < 2 ^ (16 - kind.tagBits) := by
  obtain ⟨-, hfive⟩ := kind.tagBits_bounds
  have hbits : ∀ rows, rowBits rows ≤ 16 - kind.tagBits ↔ rows < 2 ^ (16 - kind.tagBits) := by
    intro rows
    have hwide := lt_rowBits_iff (show 0 < 16 - kind.tagBits by omega) rows
    omega
  calc layout.codedBits kind ≤ 16
      ↔ (kind.tables.map fun t => rowBits (layout.rowCount t)).foldl max 0 ≤ 16 - kind.tagBits := by
        rw [codedBits]
        omega
    _ ↔ ∀ t ∈ kind.tables, layout.rowCount t < 2 ^ (16 - kind.tagBits) := by
        rw [foldl_max_le_iff, List.forall_mem_map]
        simp only [hbits, Nat.zero_le, true_and]

/-- **A coded index takes two bytes** exactly when the bits that its tag leaves of sixteen can
number the rows of every table that it may refer to. -/
lemma codedWidth_eq_ite :
    layout.codedWidth kind =
      if ∀ t ∈ kind.tables, layout.rowCount t < 2 ^ (16 - kind.tagBits) then 2 else 4 := by
  simp only [codedWidth, width, decide_eq_true_iff, ← Nat.not_le, codedBits_le_sixteen_iff, ite_not]

/-- A row of a table, with the tag in front of it, fits the width of a coded index: if that is two
bytes, by the number of rows. -/
lemma lt_two_pow_codedWidth {tag row : ℕ} {t : TableId} (htag : kind.tables[tag]? = some t)
    (hrows : row ≤ layout.rowCount t) (hrow : row < 2 ^ (32 - kind.tagBits)) :
    row <<< kind.tagBits + tag < 2 ^ (8 * layout.codedWidth kind) := by
  obtain ⟨-, hfive⟩ := kind.tagBits_bounds
  have hlow := CodedKind.lt_of_tables_getElem? htag
  have hfit : ∀ bits, kind.tagBits ≤ bits → row < 2 ^ (bits - kind.tagBits) →
      row <<< kind.tagBits + tag < 2 ^ bits := by
    intro bits hle hlt
    have hsplit : 2 ^ bits = 2 ^ (bits - kind.tagBits) * 2 ^ kind.tagBits := by
      rw [← Nat.pow_add, Nat.sub_add_cancel hle]
    calc row <<< kind.tagBits + tag < row * 2 ^ kind.tagBits + 2 ^ kind.tagBits := by
          rw [Nat.shiftLeft_eq]
          omega
      _ = (row + 1) * 2 ^ kind.tagBits := (Nat.succ_mul _ _).symm
      _ ≤ 2 ^ bits := hsplit ▸ Nat.mul_le_mul_right _ hlt
  rw [codedWidth_eq_ite]
  split_ifs with hsmall
  · have hmem : t ∈ kind.tables := List.mem_of_getElem? htag
    exact hfit 16 (by omega) (Nat.lt_of_le_of_lt hrows (hsmall t hmem))
  · exact hfit 32 (by omega) hrow

end Widths

/-! ## Bits that the mask notes -/

/-- The row count of a table that the mask does not name is zero. -/
lemma getElem?_of_run_countsOf {mask : ℕ} {tables : List TableId} {counts : List ℕ}
    {c c' : Cursor} (h : (TableStream.countsOf mask tables).run c = .ok counts c') {i : ℕ}
    {t : TableId} (ht : tables[i]? = some t) (hnot : TableStream.names mask t = false) :
    counts[i]? = some 0 := by
  induction tables generalizing c counts i with
  | nil => cases ht
  | cons first tables ih =>
    rw [TableStream.countsOf, List.mapM_cons] at h
    obtain ⟨count, c₁, hcount, h⟩ := run_bind_eq_ok_iff.mp h
    obtain ⟨rest, c₂, hrest, h⟩ := run_bind_eq_ok_iff.mp h
    cases h
    cases i with
    | zero =>
      obtain rfl := Option.some.inj ht
      rw [hnot] at hcount
      cases hcount
      rfl
    | succ i => exact ih hrest ht

/-- A table that the mask does not name has no rows. -/
lemma rowCount_eq_zero_of_not_names {data : ByteArray} {valid : ℕ} {layout : Layout}
    (h : ofStream data valid = .ok layout) {t : TableId} (hnot : valid.testBit t.number = false) :
    layout.rowCount t = 0 := by
  unfold ofStream at h
  split_ifs at h with hsupported
  cases hcounts : (readCounts valid).run ⟨data, countsOffset⟩ with
  | error e c =>
    rw [hcounts] at h
    cases h
  | ok counts c =>
    rw [hcounts] at h
    cases hflags : data[flagsOffset]? with
    | none =>
      rw [hflags] at h
      cases h
    | some flags =>
      rw [hflags] at h
      cases h
      have hzero := getElem?_of_run_countsOf hcounts (TableId.all_getElem?_number t) hnot
      simp only [ofCounts, List.getElem?_toArray, hzero, Option.getD_some]

/-- The bits that the mask notes for the tables of a kind, and the tag, are too many for two bytes
exactly when those of all tables are: a table that the mask does not name has no rows. -/
lemma codedWidth_eq_width_notedBits {data : ByteArray} {valid : ℕ} {layout : Layout}
    (h : ofStream data valid = .ok layout) (kind : CodedKind) :
    layout.codedWidth kind =
      width (16 < (kind.tables.map fun t => notedBits valid t (layout.rowCount t)).foldl max 0 +
        kind.tagBits) := by
  obtain ⟨-, hfive⟩ := kind.tagBits_bounds
  have hsame : ∀ t, notedBits valid t (layout.rowCount t) ≤ 16 - kind.tagBits ↔
      rowBits (layout.rowCount t) ≤ 16 - kind.tagBits := by
    intro t
    unfold notedBits
    split_ifs with hnamed
    · rfl
    · rw [rowCount_eq_zero_of_not_names h (Bool.eq_false_iff.mpr hnamed)]
      have hone : rowBits 0 = 1 := rfl
      omega
  have hbits : (kind.tables.map fun t => notedBits valid t (layout.rowCount t)).foldl max 0 ≤
        16 - kind.tagBits ↔
      (kind.tables.map fun t => rowBits (layout.rowCount t)).foldl max 0 ≤ 16 - kind.tagBits := by
    rw [foldl_max_le_iff, foldl_max_le_iff, List.forall_mem_map, List.forall_mem_map]
    simp only [hsame]
  rw [codedWidth, codedBits]
  congr 1
  rw [decide_eq_decide]
  omega

end Layout

/-! ## Reading -/

/-- A number stands for nothing exactly when its tag is not the place of a table. -/
lemma CodedIndex.decode?_eq_none_iff {kind : CodedKind} {value : ℕ} :
    decode? kind value = none ↔ kind.tables.length ≤ value % 2 ^ kind.tagBits := by
  rw [decode?, Option.map_eq_none_iff, List.getElem?_eq_none_iff, Nat.one_shiftLeft]

/-- **What is read in front of a written number** is what the number stands for. The cursor comes to
stand behind the number, also when it stands for nothing. -/
lemma Reader.run_coded_of_rest {layout : Layout} {kind : CodedKind} {value : ℕ}
    (hvalue : value < 2 ^ (8 * layout.codedWidth kind)) {c : Cursor} {suffix : List UInt8}
    (h : c.rest = littleEndianBytes (layout.codedWidth kind) value ++ suffix) :
    (coded layout kind).run c =
      match CodedIndex.decode? kind value with
      | some i => .ok i (c.advance (layout.codedWidth kind))
      | none => .error .outOfBounds (c.advance (layout.codedWidth kind)) := by
  have hpos : 0 < layout.codedWidth kind := by
    rw [Layout.codedWidth_eq_ite]
    split_ifs <;> decide
  have hword := reads_word hpos hvalue c suffix h
  rw [length_littleEndianBytes] at hword
  rw [coded, EStateM.run_bind, hword]
  cases hdecode : CodedIndex.decode? kind value <;> simp only [hdecode] <;> rfl

namespace Layout

/-- **Coded indices have sound, minimal widths and can be decoded.** Let the layout be that of any
stream of tables. A coded index takes two bytes exactly when every table that it may refer to has
fewer rows than the bits that the tag leaves of sixteen can number, and four bytes otherwise; the
bits that the mask of tables notes say the same. Each row of such a table, if it leaves room for
the tag in 32 bits, fits the width together with the tag of the table, and wherever this number is
written, it is read as the table and the row, and the cursor comes to stand behind it. A number
whose tag is not the place of a table stands for nothing, and reading it fails.

**Proof sketch.** The width is by the largest number of bits of a row number, which is a bound on
all of them (`codedBits_le_sixteen_iff`), and so is the largest one of the noted bits. In two bytes
a row fits since it is no larger than the number of rows, in four bytes by assumption
(`lt_two_pow_codedWidth`). A number that fits is read as it is (`Reader.run_coded_of_rest`), and its
low bits are the tag. -/
theorem coded_indices {data : ByteArray} {valid : ℕ} {layout : Layout}
    (h : ofStream data valid = .ok layout) (kind : CodedKind) :
    layout.codedWidth kind =
      (if ∀ t ∈ kind.tables, layout.rowCount t < 2 ^ (16 - kind.tagBits) then 2 else 4) ∧
    layout.codedWidth kind =
      width (16 < (kind.tables.map fun t => notedBits valid t (layout.rowCount t)).foldl max 0 +
        kind.tagBits) ∧
    (∀ tag t row, kind.tables[tag]? = some t → row ≤ layout.rowCount t →
      row < 2 ^ (32 - kind.tagBits) →
        row <<< kind.tagBits ||| tag < 2 ^ (8 * layout.codedWidth kind) ∧
        ∀ c suffix, c.rest =
            littleEndianBytes (layout.codedWidth kind) (row <<< kind.tagBits ||| tag) ++ suffix →
          (Reader.coded layout kind).run c =
            .ok ⟨t, row⟩ (c.advance (layout.codedWidth kind))) ∧
    (∀ value, CodedIndex.decode? kind value = none ↔
      kind.tables.length ≤ value % 2 ^ kind.tagBits) ∧
    ∀ value < 2 ^ (8 * layout.codedWidth kind), kind.tables.length ≤ value % 2 ^ kind.tagBits →
      ∀ c suffix, c.rest = littleEndianBytes (layout.codedWidth kind) value ++ suffix →
        (Reader.coded layout kind).run c =
          .error .outOfBounds (c.advance (layout.codedWidth kind)) := by
  refine ⟨codedWidth_eq_ite layout kind, codedWidth_eq_width_notedBits h kind, ?_,
    fun value => CodedIndex.decode?_eq_none_iff, ?_⟩
  · intro tag t row htag hrows hrow
    have hlow := CodedKind.lt_of_tables_getElem? htag
    have hfit := lt_two_pow_codedWidth layout kind htag hrows hrow
    have hdecode := CodedIndex.decode?_add kind row tag (Nat.one_shiftLeft _ ▸ hlow)
    rw [htag, Option.map_some] at hdecode
    rw [← Nat.shiftLeft_add_eq_or_of_lt hlow]
    refine ⟨hfit, fun c suffix hrest => ?_⟩
    rw [Reader.run_coded_of_rest hfit hrest, hdecode]
  · intro value hvalue htag c suffix hrest
    rw [Reader.run_coded_of_rest hvalue hrest, CodedIndex.decode?_eq_none_iff.mpr htag]

/-- A stream of tables that has nothing but 2048 references to other modules, one more than what a
tag of five bits leaves room for in two bytes. -/
def moduleRefStream : ByteArray :=
  ⟨
    #[0x00, 0x00, 0x00, 0x00, 0x02, 0x00, 0x00, 0x01, 0x00, 0x00, 0x00, 0x04, 0x00, 0x00, 0x00,
      0x00, 0x00, 0x00, 0x00, 0x00, 0x00, 0x00, 0x00, 0x00, 0x00, 0x08, 0x00, 0x00]⟩

/-- At the bound by the general law: what carries an attribute takes four bytes, while a parent with
a tag of three bits takes two. The last reference is read between other bytes, and the first tag
that selects no table is refused. -/
theorem coded_indices_moduleRefStream :
    ∃ layout, ofStream moduleRefStream 0x4000000 = .ok layout ∧
      layout.codedWidth .hasCustomAttribute = 4 ∧ layout.codedWidth .memberRefParent = 2 ∧
      (Reader.coded layout .hasCustomAttribute).run
          ⟨⟨#[0xFF, 0x0C, 0x00, 0x01, 0x00, 0xFF]⟩, 1⟩ =
        .ok ⟨.moduleRef, 2048⟩ ⟨⟨#[0xFF, 0x0C, 0x00, 0x01, 0x00, 0xFF]⟩, 5⟩ ∧
      (Reader.coded layout .hasCustomAttribute).run
          ⟨⟨#[0xFF, 0x16, 0x00, 0x01, 0x00, 0xFF]⟩, 1⟩ =
        .error .outOfBounds ⟨⟨#[0xFF, 0x16, 0x00, 0x01, 0x00, 0xFF]⟩, 5⟩ := by
  have hopen : ofStream moduleRefStream 0x4000000 =
      .ok (ofCounts (List.replicate 26 0 ++ 2048 :: List.replicate 18 0) 0) := by
    rfl
  obtain ⟨hattribute, -, hread, -, hrefused⟩ := coded_indices hopen .hasCustomAttribute
  obtain ⟨hparent, -⟩ := coded_indices hopen .memberRefParent
  rw [if_neg (by decide)] at hattribute
  rw [if_pos (by decide)] at hparent
  rw [hattribute] at hread hrefused
  refine ⟨_, hopen, hattribute, hparent, ?_, ?_⟩
  · exact (hread 12 .moduleRef 2048 rfl (by decide) (by decide)).2 _ [0xFF] (by decide)
  · exact hrefused 0x10016 (by decide) (by decide) _ [0xFF] (by decide)

end Layout

end TypeInventory
