import TypeInventory.Proofs.Metadata.Access

set_option relaxedAutoImplicit false
set_option autoImplicit false

/-!
# Where tables lie

A stream of tables declares in its head which tables are present, and behind the head how many rows
each of them has. The rows follow, one table after another in the order of their numbers. This
module says what a stream declares in terms of its bytes alone, and proves that the tables of an
accepted stream lie where they should: one behind the other, none of them past the end, and each row
in its own bytes. A stream whose tables would run past its end is rejected.

## Main definitions

* `popcount`, `declaredMask`, `declaredFlags`, `declaredRows`, `declaredLayout`, `declaredStart` —
  what the bytes of a stream declare.
* `Layout.tableSize` — how many bytes the rows of a table take.
* `Adjacent` — tables with rows that lie one behind the other.
* `RunsPast` — streams that declare more than they hold.

## Main results

* `locate_eq_error_iff`, `adjacent_of_locate` — what locating tables gives, and when it fails.
* `ofBytes_eq_ok_iff` — when a stream is accepted, and what its tables are.
* `TableStream.geometry` — tables of accepted streams, their rows, and the streams that are
  rejected.
-/

namespace TypeInventory

/-- How many of the 64 bits of a mask are set. -/
def popcount (mask : ℕ) : ℕ :=
  (List.range 64).countP mask.testBit

/-- How many bytes the rows of a table take. -/
def Layout.tableSize (layout : Layout) (t : TableId) : ℕ :=
  layout.rowCount t * layout.rowSize t

/-! ## The order of tables -/

namespace TableId

/-- The list of all tables is in the order of their numbers. -/
lemma map_number_all : all.map number = List.range count :=
  rfl

/-- The tables in front of a table are those with smaller numbers. -/
lemma map_number_take (t : TableId) : (all.take t.number).map number = List.range t.number := by
  cases t <;> rfl

/-- The list of all tables has a table at the place of its number only. -/
lemma all_getElem?_eq_some_iff {i : ℕ} {t : TableId} : all[i]? = some t ↔ i = t.number := by
  constructor
  · intro h
    have hnumber : (all.map number)[i]? = some t.number := by rw [List.getElem?_map, h]; rfl
    rw [map_number_all, List.getElem?_eq_some_iff] at hnumber
    obtain ⟨hi, heq⟩ := hnumber
    rwa [List.getElem_range] at heq
  · rintro rfl
    exact all_getElem?_number t

/-- The list of all tables goes from smaller to larger numbers. -/
lemma pairwise_number_all : all.Pairwise fun t u => t.number < u.number := by
  rw [← List.pairwise_map, map_number_all]
  exact List.pairwise_lt_range

end TableId

namespace TableStream

/-! ## What a stream declares -/

/-- The mask of present tables. -/
def declaredMask (data : ByteArray) : ℕ :=
  numberAt data 8 8

/-- The flags that say which heaps are large. -/
def declaredFlags (data : ByteArray) : ℕ :=
  numberAt data 6 1

/-- The number of rows of a table: it lies behind those of the present tables with smaller
numbers. -/
def declaredRows (data : ByteArray) (t : TableId) : ℕ :=
  if (declaredMask data).testBit t.number then
    numberAt data (24 + 4 * (List.range t.number).countP (declaredMask data).testBit) 4
  else 0

/-- The row counts and the flags of a stream. -/
def declaredLayout (data : ByteArray) : Layout where
  rowCount := declaredRows data
  wideStrings := (declaredFlags data).testBit 0
  wideGuids := (declaredFlags data).testBit 1
  wideBlobs := (declaredFlags data).testBit 2

/-- Where the first table starts: behind the head and one number for each present table, and behind
four bytes more if a flag announces them. -/
def declaredStart (data : ByteArray) : ℕ :=
  24 + 4 * popcount (declaredMask data) + if (declaredFlags data).testBit 6 then 4 else 0

/-- A stream runs past its end: either its row counts do, or the rows of some table, when all tables
lie one behind the other. -/
def RunsPast (data : ByteArray) : Prop :=
  data.size < 24 + 4 * popcount (declaredMask data) ∨
    ∃ t, 0 < declaredRows data t ∧
      data.size < declaredStart data +
        ((TableId.all.take t.number).map (declaredLayout data).tableSize).sum +
        (declaredLayout data).tableSize t

/-! ## Locating tables -/

/-- The places `starts` of tables with rows lie one behind the other from `first` on, none of them
past `size`. -/
structure Adjacent (layout : Layout) (size : ℕ) (tables : List TableId) (first : ℕ)
    (starts : List (TableId × ℕ)) : Prop where
  /-- Exactly the tables with rows have a place, in their order. -/
  tables_eq : starts.map Prod.fst = tables.filter fun t => 0 < layout.rowCount t
  /-- The first place is where the tables start. -/
  head_eq : ∀ p ∈ starts.head?, p.2 = first
  /-- Each further place is where the table in front of it ends. -/
  chain : starts.IsChain fun p q => q.2 = p.2 + layout.tableSize p.1
  /-- No table runs past the end. -/
  inside : ∀ p ∈ starts, p.2 + layout.tableSize p.1 ≤ size

section Locate

variable {layout : Layout} {size : ℕ}

/-- A table with rows has a place. -/
lemma Adjacent.exists_mem {first : ℕ} {starts : List (TableId × ℕ)} {t : TableId}
    (h : Adjacent layout size TableId.all first starts) (hrows : 0 < layout.rowCount t) :
    ∃ p ∈ starts, p.1 = t := by
  have hmem : t ∈ starts.map Prod.fst := by
    rw [h.tables_eq, List.mem_filter]
    exact ⟨List.mem_of_getElem? (TableId.all_getElem?_number t), by simpa using hrows⟩
  exact List.mem_map.mp hmem

/-- A table without rows is passed over. -/
lemma locate_cons_of_empty {t : TableId} {tables : List TableId} {first : ℕ}
    (h : layout.rowCount t = 0) :
    locate layout size (t :: tables) first = locate layout size tables first := by
  rw [locate, if_pos h]

/-- A table with rows may not run past the end. -/
lemma locate_cons_of_past {t : TableId} {tables : List TableId} {first : ℕ}
    (hrows : 0 < layout.rowCount t) (h : size < first + layout.tableSize t) :
    locate layout size (t :: tables) first = .error .outOfBounds := by
  rw [locate, if_neg (Nat.ne_of_gt hrows)]
  exact if_pos h

/-- Behind a table with rows follow the others. -/
lemma locate_cons_of_fits {t : TableId} {tables : List TableId} {first : ℕ}
    (hrows : 0 < layout.rowCount t) (h : first + layout.tableSize t ≤ size) :
    locate layout size (t :: tables) first =
      (locate layout size tables (first + layout.tableSize t)).map ((t, first) :: ·) := by
  rw [locate, if_neg (Nat.ne_of_gt hrows)]
  exact if_neg (Nat.not_lt.mpr h)

/-- Tables that can be located lie one behind the other.

**Proof sketch.** By induction on the tables. A table without rows has no place and moves nothing;
one with rows takes the first place, and the other tables lie behind it. -/
lemma adjacent_of_locate {tables : List TableId} {first : ℕ} {starts : List (TableId × ℕ)}
    (h : locate layout size tables first = .ok starts) :
    Adjacent layout size tables first starts := by
  induction tables generalizing first starts with
  | nil =>
    cases h
    exact ⟨rfl, by simp, .nil, by simp⟩
  | cons t tables ih =>
    rcases Nat.eq_zero_or_pos (layout.rowCount t) with hempty | hrows
    · rw [locate_cons_of_empty hempty] at h
      obtain ⟨htables, hhead, hchain, hinside⟩ := ih h
      refine ⟨?_, hhead, hchain, hinside⟩
      rw [htables, List.filter_cons_of_neg (by simp [hempty])]
    · by_cases hpast : size < first + layout.tableSize t
      · rw [locate_cons_of_past hrows hpast] at h
        cases h
      · rw [locate_cons_of_fits hrows (Nat.not_lt.mp hpast)] at h
        cases hrest : locate layout size tables (first + layout.tableSize t) with
        | error e =>
          rw [hrest] at h
          cases h
        | ok rest =>
          rw [hrest] at h
          cases h
          obtain ⟨htables, hhead, hchain, hinside⟩ := ih hrest
          refine ⟨?_, ?_, ?_, ?_⟩
          · rw [List.map_cons, htables, List.filter_cons_of_pos (by simpa using hrows)]
          · rintro p ⟨⟩
            rfl
          · exact List.isChain_cons.mpr ⟨hhead, hchain⟩
          · rw [List.forall_mem_cons]
            exact ⟨Nat.not_lt.mp hpast, hinside⟩

/-- Some table with rows, together with the sizes of those in front of it, runs past the end. -/
def TablesRunPast (layout : Layout) (size : ℕ) (tables : List TableId) (first : ℕ) : Prop :=
  ∃ i t, tables[i]? = some t ∧ 0 < layout.rowCount t ∧
    size < first + ((tables.take i).map layout.tableSize).sum + layout.tableSize t

/-- Either the first table runs past the end or one of the others behind it. -/
lemma tablesRunPast_cons_iff {t : TableId} {tables : List TableId} {first : ℕ} :
    TablesRunPast layout size (t :: tables) first ↔
      (0 < layout.rowCount t ∧ size < first + layout.tableSize t) ∨
        TablesRunPast layout size tables (first + layout.tableSize t) := by
  constructor
  · rintro ⟨i, u, hu, hrows, hpast⟩
    cases i with
    | zero =>
      cases hu
      exact .inl ⟨hrows, by simpa using hpast⟩
    | succ i =>
      refine .inr ⟨i, u, hu, hrows, ?_⟩
      simpa only [List.take_succ_cons, List.map_cons, List.sum_cons, Nat.add_assoc] using hpast
  · rintro (⟨hrows, hpast⟩ | ⟨i, u, hu, hrows, hpast⟩)
    · exact ⟨0, t, rfl, hrows, by simpa using hpast⟩
    · refine ⟨i + 1, u, hu, hrows, ?_⟩
      simpa only [List.take_succ_cons, List.map_cons, List.sum_cons, Nat.add_assoc] using hpast

/-- Locating tables fails exactly when one of them runs past the end. -/
lemma locate_eq_error_iff {tables : List TableId} {first : ℕ} {e : Fault} :
    locate layout size tables first = .error e ↔
      e = .outOfBounds ∧ TablesRunPast layout size tables first := by
  induction tables generalizing first e with
  | nil => simp [locate, TablesRunPast]
  | cons t tables ih =>
    rw [tablesRunPast_cons_iff]
    rcases Nat.eq_zero_or_pos (layout.rowCount t) with hempty | hrows
    · rw [locate_cons_of_empty hempty, ih]
      simp [Layout.tableSize, hempty]
    · by_cases hpast : size < first + layout.tableSize t
      · rw [locate_cons_of_past hrows hpast]
        simp [hrows, hpast, eq_comm]
      · rw [locate_cons_of_fits hrows (Nat.not_lt.mp hpast)]
        cases hrest : locate layout size tables (first + layout.tableSize t) with
        | error e' =>
          have hpast' := (ih.mp hrest).2
          rw [(ih.mp hrest).1]
          simp [Except.map, hpast', eq_comm]
        | ok rest =>
          have hfits : ¬TablesRunPast layout size tables (first + layout.tableSize t) := by
            intro hpast'
            rw [ih.mpr ⟨rfl, hpast'⟩] at hrest
            cases hrest
          simp [Except.map, hpast, hfits]

end Locate

/-! ## Reading the head -/

/-- The head of a stream takes 24 bytes, and its numbers lie at fixed places. -/
lemma runOn_readHead (data : ByteArray) :
    readHead.runOn data =
      if 24 ≤ data.size then
        .ok (numberAt data 4 1, numberAt data 5 1, declaredFlags data, declaredMask data,
          numberAt data 16 8)
      else .error .outOfBounds := by
  have htakes : readHead.Takes (4 + (1 + (1 + (1 + (1 + (8 + (8 + 0))))))) _ :=
    Reader.takes_bind (Reader.takes_skip 4) fun _ =>
    Reader.takes_bind (Reader.takes_word 1) fun major =>
    Reader.takes_bind (Reader.takes_word 1) fun minor =>
    Reader.takes_bind (Reader.takes_word 1) fun flags =>
    Reader.takes_bind (Reader.takes_skip 1) fun _ =>
    Reader.takes_bind (Reader.takes_word 8) fun valid =>
    Reader.takes_bind (Reader.takes_word 8) fun sorted =>
    Reader.takes_pure (major, minor, flags, valid, sorted)
  obtain ⟨hread, hpast⟩ := htakes data 0 (Nat.zero_le _)
  rw [Reader.runOn_eq_outcome]
  split_ifs with hsize
  · rw [hread hsize]
    rfl
  · obtain ⟨c, hrun⟩ := hpast (Nat.not_le.mp hsize)
    rw [hrun]
    rfl

/-! ## Reading row counts -/

/-- Whether a mask names a table. -/
def names (mask : ℕ) (t : TableId) : Bool :=
  mask.testBit t.number

/-- The row counts of the given tables, four bytes for each that the mask names. -/
def countsOf (mask : ℕ) (tables : List TableId) : Reader (List ℕ) :=
  tables.mapM fun t => if names mask t then Reader.word 4 else pure 0

/-- Row counts are read when there are four bytes for each named table. The row count of a table
lies behind those of the named tables in front of it. -/
lemma run_countsOf_of_le {mask : ℕ} {tables : List TableId} {c : Cursor}
    (h : c.pos + 4 * tables.countP (names mask) ≤ c.data.size) :
    ∃ counts c', (countsOf mask tables).run c = .ok counts c' ∧
      ∀ i, counts[i]? = tables[i]?.map fun t =>
        if names mask t then
          numberAt c.data (c.pos + 4 * (tables.take i).countP (names mask)) 4
        else 0 := by
  induction tables generalizing c with
  | nil => exact ⟨[], c, rfl, by simp⟩
  | cons t tables ih =>
    rw [countsOf, List.mapM_cons]
    by_cases hbit : names mask t
    · rw [List.countP_cons_of_pos hbit] at h
      have hword := Reader.run_word_of_le (show c.pos + 4 ≤ c.data.size by omega)
      obtain ⟨counts, c', hcounts, hget⟩ :=
        ih (show (⟨c.data, c.pos + 4⟩ : Cursor).pos + _ ≤ _ by simp only; omega)
      refine ⟨numberAt c.data c.pos 4 :: counts, c', ?_, ?_⟩
      · rw [if_pos hbit]
        exact run_bind_eq_ok_iff.mpr
          ⟨_, _, hword, run_bind_eq_ok_iff.mpr ⟨_, _, hcounts, rfl⟩⟩
      · intro i
        cases i with
        | zero => simp [hbit]
        | succ i =>
          rw [List.getElem?_cons_succ, List.getElem?_cons_succ, hget, List.take_succ_cons,
            List.countP_cons_of_pos hbit]
          simp only [Nat.mul_succ, Nat.add_assoc, Nat.add_comm 4]
    · rw [List.countP_cons_of_neg hbit] at h
      obtain ⟨counts, c', hcounts, hget⟩ := ih h
      refine ⟨0 :: counts, c', ?_, ?_⟩
      · rw [if_neg hbit]
        exact run_bind_eq_ok_iff.mpr
          ⟨_, _, rfl, run_bind_eq_ok_iff.mpr ⟨_, _, hcounts, rfl⟩⟩
      · intro i
        cases i with
        | zero => simp [hbit]
        | succ i =>
          rw [List.getElem?_cons_succ, List.getElem?_cons_succ, hget, List.take_succ_cons,
            List.countP_cons_of_neg hbit]

/-- Row counts that run past the end are out of bounds. -/
lemma run_countsOf_of_lt {mask : ℕ} {tables : List TableId} {c : Cursor}
    (hpos : c.pos ≤ c.data.size) (h : c.data.size < c.pos + 4 * tables.countP (names mask)) :
    ∃ c', (countsOf mask tables).run c = .error .outOfBounds c' := by
  induction tables generalizing c with
  | nil =>
    rw [List.countP_nil] at h
    omega
  | cons t tables ih =>
    rw [countsOf, List.mapM_cons, EStateM.run_bind]
    by_cases hbit : names mask t
    · rw [List.countP_cons_of_pos hbit] at h
      rw [if_pos hbit]
      by_cases hword : c.pos + 4 ≤ c.data.size
      · obtain ⟨c', hrest⟩ := ih (show (⟨c.data, c.pos + 4⟩ : Cursor).pos ≤ _ from hword)
          (show _ < c.pos + 4 + _ by simp only; omega)
        rw [countsOf] at hrest
        refine ⟨c', ?_⟩
        simp only [Reader.run_word_of_le hword, EStateM.run_bind, hrest]
      · refine ⟨c, ?_⟩
        simp only [Reader.run_word_of_lt (Nat.not_le.mp hword)]
    · rw [List.countP_cons_of_neg hbit] at h
      obtain ⟨c', hrest⟩ := ih hpos h
      rw [countsOf] at hrest
      refine ⟨c', ?_⟩
      simp only [if_neg hbit, EStateM.run_pure, EStateM.run_bind, hrest]

/-- A mask that names known tables only has as many bits as it names tables. -/
lemma maskSize_eq_popcount {mask : ℕ} (h : mask >>> TableId.count = 0) :
    maskSize mask = popcount mask := by
  have hhigh : ∀ i, mask.testBit (TableId.count + i) = false := by
    intro i
    rw [← Nat.testBit_shiftRight, h, Nat.zero_testBit]
  have hsplit : List.range 64 =
      List.range TableId.count ++ (List.range 19).map (TableId.count + ·) := by
    rw [← List.range_add]
    rfl
  have hlow : maskSize mask = (List.range TableId.count).countP mask.testBit := by
    rw [← TableId.map_number_all, List.countP_map]
    rfl
  have hnone : ((List.range 19).map (TableId.count + ·)).countP mask.testBit = 0 := by
    rw [List.countP_map, List.countP_eq_zero]
    intro i _
    simp [hhigh i]
  rw [popcount, hsplit, List.countP_append, hnone, Nat.add_zero, hlow]

section Stream

variable {data : ByteArray}

/-- The row counts behind the head, and the flags, make the declared layout. -/
lemma ofStream_of_le (hsupported : declaredMask data >>> TableId.count = 0)
    (h : 24 + 4 * popcount (declaredMask data) ≤ data.size) :
    Layout.ofStream data (declaredMask data) = .ok (declaredLayout data) := by
  rw [← maskSize_eq_popcount hsupported] at h
  have hroom : (⟨data, Layout.countsOffset⟩ : Cursor).pos +
      4 * TableId.all.countP (names (declaredMask data)) ≤ data.size := h
  obtain ⟨counts, c', hcounts, hget⟩ := run_countsOf_of_le hroom
  have hflags : data[Layout.flagsOffset]? = some data[6] := getElem?_pos data 6 (by omega)
  have hlayout : Layout.ofCounts counts (data[6]).toNat = declaredLayout data := by
    have hrows : ∀ t : TableId, counts[t.number]?.getD 0 = declaredRows data t := by
      intro t
      rw [hget, TableId.all_getElem?_number, Option.map_some, Option.getD_some, declaredRows,
        ← TableId.map_number_take, List.countP_map]
      rfl
    simp only [Layout.ofCounts, declaredLayout, List.getElem?_toArray, hrows, declaredFlags,
      numberAt_one (show 6 < data.size by omega)]
  have hread : (Layout.readCounts (declaredMask data)).run ⟨data, Layout.countsOffset⟩ =
      .ok counts c' := hcounts
  rw [Layout.ofStream, if_pos hsupported, hread, hflags]
  exact congrArg Except.ok hlayout

/-- Row counts that run past the end are out of bounds. -/
lemma ofStream_of_lt (hsize : 24 ≤ data.size) (hsupported : declaredMask data >>> TableId.count = 0)
    (h : data.size < 24 + 4 * popcount (declaredMask data)) :
    Layout.ofStream data (declaredMask data) = .error .outOfBounds := by
  rw [← maskSize_eq_popcount hsupported] at h
  have hpast : data.size < (⟨data, Layout.countsOffset⟩ : Cursor).pos +
      4 * TableId.all.countP (names (declaredMask data)) := h
  obtain ⟨c', hcounts⟩ := run_countsOf_of_lt (c := ⟨data, Layout.countsOffset⟩) hsize hpast
  have hread : (Layout.readCounts (declaredMask data)).run ⟨data, Layout.countsOffset⟩ =
      .error .outOfBounds c' := hcounts
  rw [Layout.ofStream, if_pos hsupported, hread]

/-! ## Accepted streams -/

/-- The tables of a stream, with the given places. -/
def declared (data : ByteArray) (starts : List (TableId × ℕ)) : TableStream where
  data := data
  major := numberAt data 4 1
  minor := numberAt data 5 1
  valid := declaredMask data
  sorted := numberAt data 16 8
  layout := declaredLayout data
  starts := starts

/-- A stream without room for a head is out of bounds. -/
lemma ofBytes_of_lt (h : data.size < 24) : ofBytes data = .error .outOfBounds := by
  rw [ofBytes, runOn_readHead, if_neg (Nat.not_le.mpr h)]
  rfl

/-- A stream whose head names no table is refused. -/
lemma ofBytes_of_no_mask (hsize : 24 ≤ data.size) (hmask : declaredMask data = 0) :
    ofBytes data = .error (.malformed .noTables) := by
  rw [ofBytes, runOn_readHead, if_pos hsize]
  simp only [bind, Except.bind, if_pos hmask]
  rfl

/-- The tables of a stream with a head that names some table. -/
lemma ofBytes_of_mask (hsize : 24 ≤ data.size) (hmask : declaredMask data ≠ 0) :
    ofBytes data = (do
      let layout ← Layout.ofStream data (declaredMask data)
      let starts ← locate layout data.size TableId.all
        (headSize + 4 * maskSize (declaredMask data) +
          if (declaredFlags data).testBit extraDataBit then 4 else 0)
      return { declared data starts with layout }) := by
  rw [ofBytes, runOn_readHead, if_pos hsize]
  simp only [bind, Except.bind, if_neg hmask]
  rfl

/-- A stream with a head, a supported mask that names some table, and all row counts is accepted
when its tables can be located. -/
lemma ofBytes_of_counts (hsize : 24 ≤ data.size) (hmask : declaredMask data ≠ 0)
    (hsupported : declaredMask data >>> TableId.count = 0)
    (h : 24 + 4 * popcount (declaredMask data) ≤ data.size) :
    ofBytes data =
      (locate (declaredLayout data) data.size TableId.all (declaredStart data)).map
        (declared data) := by
  have hstart : (headSize + 4 * maskSize (declaredMask data) +
      if (declaredFlags data).testBit extraDataBit then 4 else 0) = declaredStart data := by
    rw [maskSize_eq_popcount hsupported]
    rfl
  rw [ofBytes_of_mask hsize hmask, ofStream_of_le hsupported h, hstart]
  simp only [bind, Except.bind, pure, Except.pure]
  cases locate (declaredLayout data) data.size TableId.all (declaredStart data) <;> rfl

/-- A stream whose row counts run past the end is out of bounds. -/
lemma ofBytes_of_counts_past (hsize : 24 ≤ data.size) (hmask : declaredMask data ≠ 0)
    (hsupported : declaredMask data >>> TableId.count = 0)
    (h : data.size < 24 + 4 * popcount (declaredMask data)) :
    ofBytes data = .error .outOfBounds := by
  rw [ofBytes_of_mask hsize hmask, ofStream_of_lt hsize hsupported h]
  rfl

/-- An accepted stream has a head with a supported mask that names some table. -/
lemma head_of_ofBytes {s : TableStream} (h : ofBytes data = .ok s) :
    24 ≤ data.size ∧ declaredMask data ≠ 0 ∧ declaredMask data >>> TableId.count = 0 := by
  by_cases hsize : 24 ≤ data.size
  · by_cases hmask : declaredMask data = 0
    · rw [ofBytes_of_no_mask hsize hmask] at h
      cases h
    · by_cases hsupported : declaredMask data >>> TableId.count = 0
      · exact ⟨hsize, hmask, hsupported⟩
      · rw [ofBytes_of_mask hsize hmask, Layout.ofStream, if_neg hsupported] at h
        cases h
  · rw [ofBytes_of_lt (Nat.not_le.mp hsize)] at h
    cases h

/-- A stream is accepted when its head names known tables, its row counts are there, and its tables
can be located. -/
lemma ofBytes_eq_ok_iff {s : TableStream} :
    ofBytes data = .ok s ↔
      (24 ≤ data.size ∧ declaredMask data ≠ 0 ∧ declaredMask data >>> TableId.count = 0) ∧
      24 + 4 * popcount (declaredMask data) ≤ data.size ∧
      ∃ starts, locate (declaredLayout data) data.size TableId.all (declaredStart data) =
        .ok starts ∧ s = declared data starts := by
  constructor
  · intro h
    obtain ⟨hsize, hmask, hsupported⟩ := head_of_ofBytes h
    by_cases hcounts : data.size < 24 + 4 * popcount (declaredMask data)
    · rw [ofBytes_of_counts_past hsize hmask hsupported hcounts] at h
      cases h
    · have hcounts := Nat.not_lt.mp hcounts
      rw [ofBytes_of_counts hsize hmask hsupported hcounts] at h
      refine ⟨⟨hsize, hmask, hsupported⟩, hcounts, ?_⟩
      cases hlocate : locate (declaredLayout data) data.size TableId.all (declaredStart data) with
      | error e =>
        rw [hlocate] at h
        cases h
      | ok starts =>
        rw [hlocate] at h
        cases h
        exact ⟨starts, rfl, rfl⟩
  · rintro ⟨⟨hsize, hmask, hsupported⟩, hcounts, starts, hlocate, rfl⟩
    rw [ofBytes_of_counts hsize hmask hsupported hcounts, hlocate]
    rfl

/-- What a stream declares runs past its end exactly when its row counts or its tables do. -/
lemma runsPast_iff :
    RunsPast data ↔
      data.size < 24 + 4 * popcount (declaredMask data) ∨
        TablesRunPast (declaredLayout data) data.size TableId.all (declaredStart data) := by
  refine or_congr_right ⟨?_, ?_⟩
  · rintro ⟨t, hrows, hpast⟩
    exact ⟨t.number, t, TableId.all_getElem?_number t, hrows, hpast⟩
  · rintro ⟨i, t, ht, hrows, hpast⟩
    obtain rfl := TableId.all_getElem?_eq_some_iff.mp ht
    exact ⟨t, hrows, hpast⟩

/-- A stream with a head and a supported mask is out of bounds exactly when it runs past its end. -/
lemma ofBytes_eq_outOfBounds_iff (hsize : 24 ≤ data.size) (hmask : declaredMask data ≠ 0)
    (hsupported : declaredMask data >>> TableId.count = 0) :
    ofBytes data = .error .outOfBounds ↔ RunsPast data := by
  rw [runsPast_iff]
  by_cases hcounts : data.size < 24 + 4 * popcount (declaredMask data)
  · simp [ofBytes_of_counts_past hsize hmask hsupported hcounts, hcounts]
  · rw [ofBytes_of_counts hsize hmask hsupported (Nat.not_lt.mp hcounts), or_iff_right hcounts]
    cases hlocate : locate (declaredLayout data) data.size TableId.all (declaredStart data) with
    | error e =>
      obtain ⟨rfl, hpast⟩ := locate_eq_error_iff.mp hlocate
      exact iff_of_true rfl hpast
    | ok starts =>
      refine iff_of_false (by rintro ⟨⟩) ?_
      intro hpast
      rw [locate_eq_error_iff.mpr ⟨rfl, hpast⟩] at hlocate
      cases hlocate

end Stream

/-! ## Rows of accepted streams -/

/-- The rows of one kind are where the places of the tables say. -/
structure RowsInPlace (s : TableStream) (kind : RowKind) : Prop where
  /-- There is no row zero, and none above the row count. -/
  outside : ∀ rid, rid = 0 ∨ s.layout.rowCount kind.table < rid →
    (s.table kind.Row).get? rid = none
  /-- Any other row is read from its own bytes, which lie in the stream; only a coded index whose
  tag selects no table makes it unreadable. -/
  inside : ∀ rid, 1 ≤ rid → rid ≤ s.layout.rowCount kind.table →
    ∃ start, (kind.table, start) ∈ s.starts ∧
      start + rid * s.layout.rowSize kind.table ≤ s.data.size ∧
      (s.table kind.Row).get? rid =
        ((kind.read s.layout rid).runOn
          (s.data.extract (start + (rid - 1) * s.layout.rowSize kind.table)
            (start + rid * s.layout.rowSize kind.table))).toOption ∧
      ((s.table kind.Row).get? rid = none ↔
        ∃ x ∈ s.layout.stored s.data kind.table.columns
            (start + (rid - 1) * s.layout.rowSize kind.table),
          ¬Column.Admits x.1 x.2)
  /-- Going through the rows gives rows 1, 2, … up to the first that cannot be read. -/
  inOrder : (s.table kind.Row).rows.map some =
    ((List.range' 1 (s.layout.rowCount kind.table)).map
      (s.table kind.Row).get?).takeWhile Option.isSome

section Rows

variable {s : TableStream}

/-- A table with rows has the place at which it is found. -/
lemma Adjacent.table_start_mem {size first : ℕ} {kind : RowKind}
    (h : Adjacent s.layout size TableId.all first s.starts)
    (hrows : 0 < s.layout.rowCount kind.table) :
    (kind.table, (s.table kind.Row).start) ∈ s.starts := by
  obtain ⟨p, hp, hfst⟩ := h.exists_mem hrows
  have hfound : (s.starts.lookup kind.table).isSome :=
    List.lookup_isSome_iff.mpr ⟨p, hp, by simp [hfst]⟩
  obtain ⟨start, hlookup⟩ := Option.isSome_iff_exists.mp hfound
  obtain ⟨before, behind, hstarts, -⟩ := List.lookup_eq_some_iff.mp hlookup
  have hstart : (s.table kind.Row).start = start := by
    change (s.starts.lookup kind.table).getD 0 = start
    rw [hlookup, Option.getD_some]
  rw [hstart, hstarts]
  simp

/-- Row `rid` ends one width behind its start. -/
lemma place_add_rowSize {kind : RowKind} {t : Table kind.Row} {rid : ℕ} (h : 1 ≤ rid) :
    t.place rid + t.rowSize = t.start + rid * t.layout.rowSize kind.table := by
  obtain ⟨n, rfl⟩ : ∃ n, rid = n + 1 := ⟨rid - 1, by omega⟩
  rw [Table.place, Table.rowSize_eq, Nat.add_sub_cancel, Nat.succ_mul, Nat.add_assoc]

/-- The rows of tables that lie one behind the other are in place. -/
lemma rowsInPlace_of_adjacent {first : ℕ}
    (h : Adjacent s.layout s.data.size TableId.all first s.starts) (kind : RowKind) :
    RowsInPlace s kind := by
  refine ⟨fun rid h => Table.get?_eq_none_of_outside h, ?_, Table.rows_eq_takeWhile _⟩
  intro rid hone hcount
  have hmem := h.table_start_mem (Nat.lt_of_lt_of_le hone hcount)
  have hstop := h.inside _ hmem
  have hend : (s.table kind.Row).place rid + (s.table kind.Row).rowSize =
      (s.table kind.Row).start + rid * s.layout.rowSize kind.table :=
    place_add_rowSize hone
  have hroom : (s.table kind.Row).place rid + (s.table kind.Row).rowSize ≤ s.data.size := by
    rw [hend]
    exact Nat.le_trans (Nat.add_le_add_left (Nat.mul_le_mul_right _ hcount) _) hstop
  refine ⟨(s.table kind.Row).start, hmem, hend ▸ hroom, ?_, ?_⟩
  · rw [Table.get?_eq_runOn_extract ⟨hone, hcount⟩ hroom, hend]
    rfl
  · exact Table.get?_eq_none_iff ⟨hone, hcount⟩ hroom

end Rows

/-- **The geometry of tables.** Let `data` be any bytes. If they are accepted as a stream of tables,
then the layout is the declared one, the tables with rows lie one behind the other from the declared
start on, in the order of their numbers and within the stream, and the rows of each kind are in
place. A stream with a head and a mask that names some table, and known tables only, is rejected as
out of bounds exactly when its row counts or its tables would run past its end.

**Proof sketch.** The head and the row counts are read at fixed places (`ofBytes_eq_ok_iff`), and
the offset of each table is the sum of the sizes in front of it, by induction over the list of all
tables (`adjacent_of_locate`, `locate_eq_error_iff`). A row that is inside a table is therefore
inside the stream, so that only its own numbers can make it unreadable. -/
theorem geometry (data : ByteArray) :
    (∀ s, ofBytes data = .ok s →
      s.data = data ∧ s.valid = declaredMask data ∧ s.layout = declaredLayout data ∧
      Adjacent s.layout data.size TableId.all (declaredStart data) s.starts ∧
      s.starts.Pairwise (fun p q => p.1.number < q.1.number) ∧
      ∀ kind, RowsInPlace s kind) ∧
    (24 ≤ data.size → declaredMask data ≠ 0 → declaredMask data >>> TableId.count = 0 →
      (ofBytes data = .error .outOfBounds ↔ RunsPast data)) := by
  refine ⟨?_, ofBytes_eq_outOfBounds_iff⟩
  intro s h
  obtain ⟨-, -, starts, hlocate, rfl⟩ := ofBytes_eq_ok_iff.mp h
  have hadjacent := adjacent_of_locate hlocate
  refine ⟨rfl, rfl, rfl, hadjacent, ?_, rowsInPlace_of_adjacent hadjacent⟩
  have hordered : (starts.map Prod.fst).Pairwise fun t u => t.number < u.number := by
    rw [hadjacent.tables_eq]
    exact TableId.pairwise_number_all.filter _
  rw [List.pairwise_map] at hordered
  exact hordered

/-- A stream of tables with a parameter and two references to members, behind four bytes that a flag
announces. The tag of the second reference selects no table. -/
def memberRefStream : List UInt8 :=
  [0x00, 0x00, 0x00, 0x00, 0x02, 0x00, 0x40, 0x01, 0x00, 0x05, 0x00, 0x00, 0x00, 0x00, 0x00, 0x00,
   0x00, 0x00, 0x00, 0x00, 0x00, 0x00, 0x00, 0x00, 0x01, 0x00, 0x00, 0x00, 0x02, 0x00, 0x00, 0x00,
   0xAA, 0xBB, 0xCC, 0xDD, 0x02, 0x00, 0x01, 0x00, 0x03, 0x00, 0x08, 0x00, 0x01, 0x00, 0x02, 0x00,
   0x07, 0x00, 0x08, 0x00, 0x03, 0x00]

/-- The law for this stream, and for the same one without its last byte. -/
theorem geometry_memberRefStream :
    ∃ s, ofBytes ⟨memberRefStream.toArray⟩ = .ok s ∧
      s.starts = [(.param, 36), (.memberRef, 42)] ∧
      Adjacent s.layout 54 TableId.all 36 s.starts ∧
      (s.table ParamRow).get? 1 = some ⟨1, 2, 1, 3⟩ ∧
      (s.table MemberRefRow).rows = [⟨1, ⟨.typeDef, 1⟩, 1, 2⟩] ∧
      (s.table MemberRefRow).get? 0 = none ∧ (s.table MemberRefRow).get? 3 = none ∧
      (s.table MemberRefRow).get? 2 = none ∧
      (∃ x ∈ s.layout.stored s.data TableId.memberRef.columns 48, ¬Column.Admits x.1 x.2) ∧
      ofBytes ⟨memberRefStream.dropLast.toArray⟩ = .error .outOfBounds := by
  obtain ⟨s, hs, htest⟩ : ∃ s, ofBytes ⟨memberRefStream.toArray⟩ = .ok s ∧
      decide (s.starts = [(.param, 36), (.memberRef, 42)] ∧
        (s.table ParamRow).get? 1 = some ⟨1, 2, 1, 3⟩ ∧
        (s.table MemberRefRow).rows = [⟨1, ⟨.typeDef, 1⟩, 1, 2⟩] ∧
        (s.table MemberRefRow).get? 2 = none ∧ s.layout.rowCount .memberRef = 2 ∧
        s.layout.rowSize .memberRef = 6) = true :=
    exists_ok_of_any (by decide +kernel)
  obtain ⟨hstarts, hparam, hrows, hunreadable, hcount, hwidth⟩ := of_decide_eq_true htest
  obtain ⟨-, -, -, hadjacent, -, hplaces⟩ := (geometry ⟨memberRefStream.toArray⟩).1 s hs
  obtain ⟨houtside, hinside, -⟩ := hplaces .memberRef
  have hcut := (geometry ⟨memberRefStream.dropLast.toArray⟩).2 (by decide) (by decide) (by decide)
  refine ⟨s, hs, hstarts, hadjacent, hparam, hrows, houtside 0 (.inl rfl),
    houtside 3 (.inr ?_), hunreadable, ?_, hcut.mpr (.inr ⟨.memberRef, by decide, by decide⟩)⟩
  · exact lt_of_eq_of_lt hcount (by decide)
  · obtain ⟨start, hstart, -, -, hnone⟩ := hinside 2 (by decide) hcount.ge
    have hplace : (TableId.memberRef, start) ∈ [(TableId.param, 36), (TableId.memberRef, 42)] :=
      hstarts ▸ hstart
    obtain rfl : start = 42 := by simpa using hplace
    change _ ↔ ∃ x ∈ s.layout.stored s.data TableId.memberRef.columns
      (42 + (2 - 1) * s.layout.rowSize .memberRef), ¬Column.Admits x.1 x.2 at hnone
    rw [hwidth] at hnone
    exact hnone.mp hunreadable

end TableStream

end TypeInventory
