import TypeInventory.Proofs.Checked.Opening
import TypeInventory.Proofs.Module.Completeness

set_option relaxedAutoImplicit false
set_option autoImplicit false

/-!
# Runs of members

Types own runs of the fields and of the methods, methods own runs of the parameters. A run starts
where its owner says and stops where that of the next owner starts. This module proves that runs
whose starts are in order share the places of their list among the owners, each place once and none
with a warning, and that a run with any other start is cut to places of the list and leaves exactly
one warning.

## Main definitions

* `MemberList.ownerKind`, `ModuleTables.owners` — the rows that own the members of a list.
* `ModuleTables.startAt` — where runs start and stop.
* `ModuleTables.runOf` — the run of an owner, as it is asked for while types are resolved.
* `ModuleTables.StartsInOrder` — runs that follow one another.
* `coveredPlaces` — the places that a run covers.

## Main results

* `flatMap_range'_of_le` — intervals that meet are one interval.
* `ModuleTables.memberRun_of_fits`, `ModuleTables.memberRun_of_not_fits` — what a run gives.
* `OpenModule.member_runs` — runs in order share the places of a list, and others are cut.
-/

namespace TypeInventory

/-! ## Owners -/

namespace MemberList

/-- The kind of the rows that own the members of a list. -/
def ownerKind : MemberList → RowKind
  | field => .typeDef
  | method => .typeDef
  | param => .methodDef

/-- The number of an owner. -/
def ownerNumber : (list : MemberList) → list.ownerKind.Row → ℕ
  | field => TypeDefRow.rid
  | method => TypeDefRow.rid
  | param => MethodDefRow.rid

/-- Where an owner says that its run starts. -/
def startOf : (list : MemberList) → list.ownerKind.Row → ℕ
  | field => TypeDefRow.fieldList
  | method => TypeDefRow.methodList
  | param => MethodDefRow.paramList

/-- The token of an owner. -/
def ownerToken (list : MemberList) (row : list.ownerKind.Row) : Token :=
  list.ownerKind.table.token (list.ownerNumber row)

end MemberList

namespace ModuleTables

/-- The table of the rows that own the members of a list. -/
def owners (m : ModuleTables) : (list : MemberList) → Table list.ownerKind.Row
  | .field => m.typeDefs
  | .method => m.typeDefs
  | .param => m.methods

/-- Where the run of owner `rid` starts: behind the last place if there is no such owner. -/
def startAt (m : ModuleTables) (list : MemberList) (rid : ℕ) : ℕ :=
  (((m.owners list).get? rid).map list.startOf).getD (m.memberCount list + 1)

/-- The run of an owner: it stops where that of the next owner starts, if there is one. -/
def runOf (m : ModuleTables) (list : MemberList) (row : list.ownerKind.Row) :
    Resolution (List ℕ) :=
  m.memberRun list (list.ownerToken row) (list.startOf row)
    (((m.owners list).get? (list.ownerNumber row + 1)).map list.startOf)

/-- The starts of all runs are in order, from the first place of the list on and up to the place
behind the last one. -/
structure StartsInOrder (m : ModuleTables) (list : MemberList) : Prop where
  /-- All owners can be read. -/
  readable : ∀ rid, 1 ≤ rid → rid ≤ (m.owners list).rowCount → ((m.owners list).get? rid).isSome
  /-- The first run does not start in front of the first place. -/
  first : 1 ≤ m.startAt list 1
  /-- Each run starts where the next one does, or in front of it. -/
  next : ∀ rid, 1 ≤ rid → rid ≤ (m.owners list).rowCount →
    m.startAt list rid ≤ m.startAt list (rid + 1)

/-- A run from `start` on and before `stop` lies within a list of `count` places. -/
def RunFits (count start stop : ℕ) : Prop :=
  1 ≤ start ∧ start ≤ stop ∧ stop ≤ count + 1

instance (count start stop : ℕ) : Decidable (RunFits count start stop) :=
  inferInstanceAs (Decidable (_ ∧ _ ∧ _))

end ModuleTables

/-- The places that a run from `start` on and before `stop` covers in a list of `count` places:
those up to the end of the list, and none if it starts elsewhere. -/
def coveredPlaces (count start stop : ℕ) : List ℕ :=
  if 1 ≤ start ∧ start ≤ count + 1 then List.range' start (min stop (count + 1) - start) else []

/-! ## Intervals -/

/-- A run covers places of the list only. -/
lemma mem_coveredPlaces {count start stop place : ℕ} (h : place ∈ coveredPlaces count start stop) :
    1 ≤ place ∧ place ≤ count := by
  unfold coveredPlaces at h
  split_ifs at h with hstart
  · rw [List.mem_range'_1] at h
    omega
  · cases h

/-- The places that a run covers are an interval. -/
lemma exists_coveredPlaces_eq (count start stop : ℕ) :
    ∃ first length, coveredPlaces count start stop = List.range' first length := by
  unfold coveredPlaces
  split_ifs
  · exact ⟨_, _, rfl⟩
  · exact ⟨0, 0, rfl⟩

/-- A run that lies within the list covers all of its places. -/
lemma coveredPlaces_of_fits {count start stop : ℕ} (h : ModuleTables.RunFits count start stop) :
    coveredPlaces count start stop = List.range' start (stop - start) := by
  obtain ⟨hone, hle, hstop⟩ := h
  rw [coveredPlaces, if_pos ⟨hone, by omega⟩, Nat.min_eq_left hstop]

/-- Numbers that do not decrease from step to step do not decrease. -/
lemma le_of_forall_le_succ {s : ℕ → ℕ} {a n : ℕ} (h : ∀ i, a ≤ i → i < a + n → s i ≤ s (i + 1)) :
    s a ≤ s (a + n) := by
  induction n with
  | zero => exact Nat.le_refl _
  | succ n ih =>
    calc s a ≤ s (a + n) := ih fun i hi hlt => h i hi (by omega)
      _ ≤ s (a + n + 1) := h _ (by omega) (by omega)

/-- Intervals of which each starts where the one in front of it stops are one interval.

**Proof sketch.** By induction on the number of intervals. Those in front of the last one are one
interval up to its start. -/
lemma flatMap_range'_of_le {s : ℕ → ℕ} {a n : ℕ}
    (h : ∀ i, a ≤ i → i < a + n → s i ≤ s (i + 1)) :
    (List.range' a n).flatMap (fun i => List.range' (s i) (s (i + 1) - s i)) =
      List.range' (s a) (s (a + n) - s a) := by
  induction n with
  | zero => simp
  | succ n ih =>
    have hfront : ∀ i, a ≤ i → i < a + n → s i ≤ s (i + 1) := fun i hi hlt => h i hi (by omega)
    have hle := le_of_forall_le_succ hfront
    have hlast := h (a + n) (by omega) (by omega)
    rw [List.range'_1_concat, List.flatMap_append, ih hfront, List.flatMap_singleton]
    have hmeet : s (a + n) = s a + (s (a + n) - s a) := by omega
    nth_rewrite 2 [hmeet]
    rw [List.range'_append_1]
    congr 1
    rw [show a + (n + 1) = a + n + 1 by omega]
    omega

/-! ## What a run gives -/

namespace ModuleTables

section Runs

variable {m : ModuleTables} {list : MemberList} {owner : Token} {start stop : ℕ} {next? : Option ℕ}

/-- A run that lies within the list gives the members at its places, without a warning. -/
lemma memberRun_of_fits (hstop : next?.getD (m.memberCount list + 1) = stop)
    (h : RunFits (m.memberCount list) start stop) :
    m.memberRun list owner start next? =
      pure ((coveredPlaces (m.memberCount list) start stop).filterMap (m.memberAt? list)) := by
  rw [coveredPlaces_of_fits h]
  subst hstop
  obtain ⟨hone, hle, hstop⟩ := h
  unfold memberRun
  simp only
  rw [if_neg (by omega), if_neg (by omega)]
  rfl

/-- A run that does not lie within the list gives the members at the places that it covers, with one
warning about its owner. -/
lemma memberRun_of_not_fits (hstop : next?.getD (m.memberCount list + 1) = stop)
    (h : ¬RunFits (m.memberCount list) start stop) :
    m.memberRun list owner start next? =
      .withWarnings [runWarning list owner start stop (m.memberCount list)]
        ((coveredPlaces (m.memberCount list) start stop).filterMap (m.memberAt? list)) := by
  subst hstop
  unfold RunFits at h
  unfold memberRun coveredPlaces
  simp only
  by_cases hstart : 1 ≤ start ∧ start ≤ m.memberCount list + 1
  · rw [if_pos hstart]
    by_cases hback : next?.getD (m.memberCount list + 1) < start
    · rw [if_pos (by omega), Nat.sub_eq_zero_of_le (by omega)]
      rfl
    · rw [if_neg (by omega), if_pos (by omega), Nat.min_eq_right (by omega)]
      rfl
  · rw [if_pos (by omega), if_neg hstart]
    rfl

/-- A run gives the members at the places that it covers, with one warning about its owner unless it
lies within the list. -/
lemma memberRun_eq (hstop : next?.getD (m.memberCount list + 1) = stop) :
    m.memberRun list owner start next? =
      .withWarnings
        (if RunFits (m.memberCount list) start stop then []
          else [runWarning list owner start stop (m.memberCount list)])
        ((coveredPlaces (m.memberCount list) start stop).filterMap (m.memberAt? list)) := by
  by_cases hfits : RunFits (m.memberCount list) start stop
  · rw [if_pos hfits]
    exact memberRun_of_fits hstop hfits
  · rw [if_neg hfits]
    exact memberRun_of_not_fits hstop hfits

end Runs

/-! ## Runs of all owners -/

section Owners

variable {m : ModuleTables} {list : MemberList}

/-- An owner has the number that it is given for. -/
lemma ownerNumber_of_get? {rid : ℕ} {row : list.ownerKind.Row}
    (h : (m.owners list).get? rid = some row) : list.ownerNumber row = rid := by
  obtain ⟨-, -, cells, -, rfl⟩ := Table.get?_eq_some_iff.mp h
  cases list <;> rfl

/-- The run of an owner starts where the owner says. -/
lemma startAt_of_get? {rid : ℕ} {row : list.ownerKind.Row}
    (h : (m.owners list).get? rid = some row) : m.startAt list rid = list.startOf row := by
  rw [startAt, h]
  rfl

/-- In two modules runs start at the same places, if they have the same owners and lists of the same
length. -/
lemma startAt_congr {m' : ModuleTables}
    (howners : ∀ rid, (m'.owners list).get? rid = (m.owners list).get? rid)
    (hcount : m'.memberCount list = m.memberCount list) (rid : ℕ) :
    m'.startAt list rid = m.startAt list rid := by
  rw [startAt, startAt, howners, hcount]

/-- Behind the last owner, a run would start behind the last place. -/
lemma startAt_behind : m.startAt list (1 + (m.owners list).rowCount) = m.memberCount list + 1 := by
  have hnone : (m.owners list).get? (1 + (m.owners list).rowCount) = none :=
    Table.get?_eq_none_of_outside (by omega)
  rw [startAt, hnone]
  rfl

/-- If all owners can be read, their numbers are 1, 2, … up to the last one. -/
lemma map_ownerNumber_rows
    (h : ∀ rid, 1 ≤ rid → rid ≤ (m.owners list).rowCount → ((m.owners list).get? rid).isSome) :
    (m.owners list).rows.map list.ownerNumber = List.range' 1 (m.owners list).rowCount := by
  have hlength : (m.owners list).rows.length = (m.owners list).rowCount :=
    Nat.le_antisymm (m.owners list).rows_eq_first.1
      (((m.owners list).le_length_rows_iff (Nat.le_refl _)).mpr h)
  refine List.ext_getElem (by simp [hlength]) fun i hi _ => ?_
  rw [List.length_map] at hi
  rw [List.getElem_map, List.getElem_range', Nat.one_mul, Nat.add_comm]
  exact ownerNumber_of_get? ((m.owners list).get?_succ_of_lt_length hi)

/-- The rows in order are given for their numbers. -/
lemma get?_ownerNumber {row : list.ownerKind.Row} (h : row ∈ (m.owners list).rows) :
    (m.owners list).get? (list.ownerNumber row) = some row := by
  obtain ⟨i, hi, rfl⟩ := List.getElem_of_mem h
  have hget := (m.owners list).get?_succ_of_lt_length hi
  rw [ownerNumber_of_get? hget]
  exact hget

/-- When the starts are in order, every run lies within the list.

**Proof sketch.** From the first run to this one starts do not decrease, so it starts in the list;
and from the next one to the place behind the last owner they do not decrease either, where the
place behind the last member is. -/
lemma fits_of_startsInOrder (h : m.StartsInOrder list) {rid : ℕ} (hone : 1 ≤ rid)
    (hle : rid ≤ (m.owners list).rowCount) :
    RunFits (m.memberCount list) (m.startAt list rid) (m.startAt list (rid + 1)) := by
  have hfront : m.startAt list 1 ≤ m.startAt list (1 + (rid - 1)) :=
    le_of_forall_le_succ fun i hi hlt => h.next i hi (by omega)
  have hback : m.startAt list (rid + 1) ≤
      m.startAt list (rid + 1 + ((m.owners list).rowCount - rid)) :=
    le_of_forall_le_succ fun i hi hlt => h.next i (by omega) (by omega)
  rw [show 1 + (rid - 1) = rid by omega] at hfront
  rw [show rid + 1 + ((m.owners list).rowCount - rid) = 1 + (m.owners list).rowCount by omega,
    startAt_behind] at hback
  exact ⟨Nat.le_trans h.first hfront, h.next rid hone hle, hback⟩

/-- When the starts are in order, the places that the runs cover are those from the first start on,
each once and in order. -/
lemma flatMap_coveredPlaces (h : m.StartsInOrder list) :
    (List.range' 1 (m.owners list).rowCount).flatMap
        (fun rid => coveredPlaces (m.memberCount list) (m.startAt list rid)
          (m.startAt list (rid + 1))) =
      List.range' (m.startAt list 1) (m.memberCount list + 1 - m.startAt list 1) := by
  rw [← startAt_behind, ← flatMap_range'_of_le fun i hi hlt => h.next i hi (by omega)]
  refine List.flatMap_congr fun rid hrid => ?_
  rw [List.mem_range'_1] at hrid
  exact coveredPlaces_of_fits (fits_of_startsInOrder h (by omega) (by omega))

/-- The members at the places that the run of an owner covers. -/
def membersOf (m : ModuleTables) (list : MemberList) (rid : ℕ) : List ℕ :=
  (coveredPlaces (m.memberCount list) (m.startAt list rid) (m.startAt list (rid + 1))).filterMap
    (m.memberAt? list)

/-- The run of an owner gives its members, with one warning about it unless the run lies within the
list. -/
lemma runOf_eq_withWarnings {rid : ℕ} {row : list.ownerKind.Row}
    (h : (m.owners list).get? rid = some row) :
    m.runOf list row =
      .withWarnings
        (if RunFits (m.memberCount list) (m.startAt list rid) (m.startAt list (rid + 1)) then []
          else [runWarning list (list.ownerToken row) (m.startAt list rid)
            (m.startAt list (rid + 1)) (m.memberCount list)])
        (m.membersOf list rid) := by
  obtain rfl := ownerNumber_of_get? h
  rw [membersOf, startAt_of_get? h]
  exact memberRun_eq rfl

/-- The run of an owner gives the members at the places that it covers. It leaves no warning if it
lies within the list, and else exactly one, which is about this owner. -/
lemma runOf_eq {rid : ℕ} {row : list.ownerKind.Row} (h : (m.owners list).get? rid = some row) :
    if RunFits (m.memberCount list) (m.startAt list rid) (m.startAt list (rid + 1)) then
      m.runOf list row = pure (m.membersOf list rid)
    else
      ∃ warning : Diagnostic, warning.severity = .warning ∧
        warning.token? = some (list.ownerKind.table.token rid) ∧
        m.runOf list row = .withWarnings [warning] (m.membersOf list rid) := by
  have hrun := runOf_eq_withWarnings h
  split_ifs with hfits
  · rw [hrun, if_pos hfits]
    rfl
  · rw [if_neg hfits] at hrun
    refine ⟨_, rfl, ?_, hrun⟩
    obtain rfl := ownerNumber_of_get? h
    rfl

end Owners

end ModuleTables

/-! ## Runs of an opened module -/

namespace OpenModule

section Opened

variable {metadata : ByteArray} {m : OpenModule} {list : MemberList}

/-- The rows of an opened module are in place. -/
lemma rowsInPlace (h : ofMetadata metadata = .ok m) (kind : RowKind) :
    TableStream.RowsInPlace m.tables kind := by
  obtain ⟨stream, -, htables⟩ := exists_tables h
  obtain ⟨-, -, -, -, -, hrows⟩ := (TableStream.geometry stream).1 m.tables htables
  exact hrows kind

/-- Rows without coded indices can be read. -/
lemma isSome_get?_of_isPlain (h : ofMetadata metadata = .ok m) {kind : RowKind}
    (hplain : kind.IsPlain) {rid : ℕ} (hone : 1 ≤ rid)
    (hle : rid ≤ (m.tables.table kind.Row).rowCount) :
    ((m.tables.table kind.Row).get? rid).isSome := by
  obtain ⟨start, -, -, -, hnone⟩ := (rowsInPlace h kind).inside rid hone hle
  rw [Option.isSome_iff_ne_none, ne_eq, hnone]
  rintro ⟨x, hx, hbad⟩
  exact hbad (hplain x.1 (Layout.fst_mem_of_mem_stored hx) x.2)

/-- Every place of a list leads to a member: the pointer there, if there are pointers, can
be read. -/
lemma isSome_memberAt? (h : ofMetadata metadata = .ok m) {place : ℕ} (hone : 1 ≤ place)
    (hle : place ≤ m.indexed.memberCount list) : (m.indexed.memberAt? list place).isSome := by
  unfold ModuleTables.memberCount at hle
  unfold ModuleTables.memberAt?
  cases list with
  | field =>
    simp only at hle ⊢
    split_ifs at hle ⊢ with hptr
    · rfl
    · rw [Option.isSome_map]
      have hplain : RowKind.fieldPtr.IsPlain := RowKind.isPlain_of_notMem (by decide)
      exact isSome_get?_of_isPlain h hplain hone hle
  | method =>
    simp only at hle ⊢
    split_ifs at hle ⊢ with hptr
    · rfl
    · rw [Option.isSome_map]
      have hplain : RowKind.methodPtr.IsPlain := RowKind.isPlain_of_notMem (by decide)
      exact isSome_get?_of_isPlain h hplain hone hle
  | param =>
    simp only at hle ⊢
    split_ifs at hle ⊢ with hptr
    · rfl
    · rw [Option.isSome_map]
      have hplain : RowKind.paramPtr.IsPlain := RowKind.isPlain_of_notMem (by decide)
      exact isSome_get?_of_isPlain h hplain hone hle

/-- No place that a run covers is left out. -/
lemma map_some_members (h : ofMetadata metadata = .ok m) (start stop : ℕ) :
    ((coveredPlaces (m.indexed.memberCount list) start stop).filterMap
        (m.indexed.memberAt? list)).map some =
      (coveredPlaces (m.indexed.memberCount list) start stop).map (m.indexed.memberAt? list) := by
  have hall : ∀ place ∈ coveredPlaces (m.indexed.memberCount list) start stop,
      (m.indexed.memberAt? list place).isSome := by
    intro place hplace
    obtain ⟨hone, hle⟩ := mem_coveredPlaces hplace
    exact isSome_memberAt? h hone hle
  generalize coveredPlaces (m.indexed.memberCount list) start stop = places at hall
  induction places with
  | nil => rfl
  | cons place places ih =>
    rw [List.forall_mem_cons] at hall
    obtain ⟨member, hmember⟩ := Option.isSome_iff_exists.mp hall.1
    rw [List.filterMap_cons_some hmember, List.map_cons, List.map_cons, ih hall.2, hmember]

end Opened

/-- No member of a run is left out. -/
lemma map_some_membersOf {metadata : ByteArray} {m : OpenModule}
    (h : ofMetadata metadata = .ok m) (list : MemberList) (rid : ℕ) :
    (m.indexed.membersOf list rid).map some =
      (coveredPlaces (m.indexed.memberCount list) (m.indexed.startAt list rid)
        (m.indexed.startAt list (rid + 1))).map (m.indexed.memberAt? list) :=
  map_some_members h _ _

/-- **Runs of members.** Let a module be opened from any metadata, and take any list of members. If
the starts of all runs are in order, then the runs of the owners give, one behind the other and
without a warning, the members at the places from the first start on up to the end of the list,
each place once. Wherever runs start, the run of an owner gives the members at an interval of
places of the list, without a warning if it lies within the list and otherwise with exactly one,
which is about this owner.

**Proof sketch.** A run covers an interval of places (`memberRun_of_fits`, `memberRun_of_not_fits`),
and each of them leads to a member, since a pointer has no coded index that could be unreadable
(`isSome_memberAt?`). Starts in order make all runs lie within the list, and intervals of which each
starts where the one in front of it stops are one interval (`flatMap_range'_of_le`). -/
theorem member_runs {metadata : ByteArray} {m : OpenModule} (hopen : ofMetadata metadata = .ok m)
    (list : MemberList) :
    (m.indexed.StartsInOrder list →
      ∃ members : List (List ℕ),
        (m.indexed.owners list).rows.map (m.indexed.runOf list) = members.map pure ∧
        members.flatten.map some =
          (List.range' (m.indexed.startAt list 1)
            (m.indexed.memberCount list + 1 - m.indexed.startAt list 1)).map
              (m.indexed.memberAt? list)) ∧
    ∀ rid row, (m.indexed.owners list).get? rid = some row →
      ∃ first length members,
        coveredPlaces (m.indexed.memberCount list) (list.startOf row)
          (m.indexed.startAt list (rid + 1)) = List.range' first length ∧
        (∀ place ∈ List.range' first length, 1 ≤ place ∧ place ≤ m.indexed.memberCount list) ∧
        members.map some = (List.range' first length).map (m.indexed.memberAt? list) ∧
        if ModuleTables.RunFits (m.indexed.memberCount list) (list.startOf row)
            (m.indexed.startAt list (rid + 1)) then
          m.indexed.runOf list row = pure members
        else
          ∃ warning : Diagnostic, warning.severity = .warning ∧
            warning.token? = some (list.ownerKind.table.token rid) ∧
            m.indexed.runOf list row = .withWarnings [warning] members := by
  refine ⟨fun horder => ?_, fun rid row hrow => ?_⟩
  · refine ⟨(List.range' 1 (m.indexed.owners list).rowCount).map (m.indexed.membersOf list), ?_, ?_⟩
    · rw [← ModuleTables.map_ownerNumber_rows horder.readable, List.map_map, List.map_map]
      refine List.map_congr_left fun row hrow => ?_
      have hget := ModuleTables.get?_ownerNumber hrow
      obtain ⟨⟨hone, hle⟩, -⟩ := Table.get?_eq_some_iff.mp hget
      have hrun := ModuleTables.runOf_eq hget
      rwa [if_pos (ModuleTables.fits_of_startsInOrder horder hone hle)] at hrun
    · rw [← ModuleTables.flatMap_coveredPlaces horder, List.map_flatten, List.map_map,
        List.map_flatMap, List.flatMap_def]
      congr 1
      exact List.map_congr_left fun rid _ => map_some_membersOf hopen list rid
  · have hrun := ModuleTables.runOf_eq hrow
    have hmembers := map_some_membersOf hopen list rid
    rw [ModuleTables.startAt_of_get? hrow] at hrun hmembers
    obtain ⟨first, length, hplaces⟩ := exists_coveredPlaces_eq (m.indexed.memberCount list)
      (list.startOf row) (m.indexed.startAt list (rid + 1))
    refine ⟨first, length, m.indexed.membersOf list rid, hplaces, ?_, ?_, hrun⟩
    · rw [← hplaces]
      exact fun place hplace => mem_coveredPlaces hplace
    · rw [hmembers, hplaces]

/-- Metadata with two types that own a field each, the first of them the second field. The run of
methods of the first type starts at zero. -/
def swappedFieldsMetadata : ByteArray :=
  ⟨
    #[0x42, 0x53, 0x4A, 0x42, 0x01, 0x00, 0x01, 0x00, 0x00, 0x00, 0x00, 0x00, 0x04, 0x00, 0x00,
      0x00, 0x76, 0x34, 0x00, 0x00, 0x00, 0x00, 0x01, 0x00, 0x24, 0x00, 0x00, 0x00, 0x50, 0x00,
      0x00, 0x00, 0x23, 0x7E, 0x00, 0x00, 0x00, 0x00, 0x00, 0x00, 0x02, 0x00, 0x00, 0x01, 0x1C,
      0x00, 0x00, 0x00, 0x00, 0x00, 0x00, 0x00, 0x00, 0x00, 0x00, 0x00, 0x00, 0x00, 0x00, 0x00,
      0x02, 0x00, 0x00, 0x00, 0x02, 0x00, 0x00, 0x00, 0x02, 0x00, 0x00, 0x00, 0x00, 0x00, 0x00,
      0x00, 0x00, 0x00, 0x00, 0x00, 0x00, 0x00, 0x01, 0x00, 0x00, 0x00, 0x00, 0x00, 0x00, 0x00,
      0x00, 0x00, 0x00, 0x00, 0x00, 0x00, 0x02, 0x00, 0x01, 0x00, 0x02, 0x00, 0x01, 0x00, 0x00,
      0x00, 0x00, 0x00, 0x00, 0x00, 0x00, 0x00, 0x00, 0x00, 0x00, 0x00]⟩

/-- The runs of two types by the general law: their fields come in the order of the pointers, and
the type whose run of methods starts nowhere has a warning of its own. -/
theorem member_runs_swappedFieldsMetadata :
    ∃ m, ofMetadata swappedFieldsMetadata = .ok m ∧ m.indexed.StartsInOrder .field ∧
      (∃ members : List (List ℕ),
        (m.indexed.owners .field).rows.map (m.indexed.runOf .field) = members.map pure ∧
        members.flatten = [2, 1]) ∧
      ∃ row warning members, (m.indexed.owners .method).get? 1 = some row ∧
        m.indexed.runOf .method row = .withWarnings [warning] members ∧
        warning.token? = some (TableId.typeDef.token 1) := by
  have htest : (ofMetadata swappedFieldsMetadata).toOption.any (fun m =>
      (m.indexed.owners .field).rowCount = 2 ∧
        (∀ rid ∈ [1, 2], ((m.indexed.owners .field).get? rid).isSome) ∧
        [1, 2, 3].map (m.indexed.startAt .field) = [1, 2, 3] ∧
        [1, 2].map (m.indexed.memberAt? .field) = [some 2, some 1] ∧
        m.indexed.startAt .method 1 = 0) = true := by
    decide +kernel
  obtain ⟨m, hopen, htest⟩ := exists_ok_of_any htest
  obtain ⟨hrows, hreadable, hstarts, hplaces, hmethod⟩ := of_decide_eq_true htest
  simp only [List.map_cons, List.map_nil, List.cons.injEq, and_true] at hstarts
  obtain ⟨hone, htwo, hthree⟩ := hstarts
  have horder : m.indexed.StartsInOrder .field := by
    refine ⟨fun rid hpos hle => hreadable rid ?_, by rw [hone], fun rid hpos hle => ?_⟩
    · rw [hrows] at hle
      simp only [List.mem_cons, List.not_mem_nil, or_false]
      omega
    · rw [hrows] at hle
      obtain rfl | rfl : rid = 1 ∨ rid = 2 := by omega
      · rw [hone, htwo]
        decide
      · rw [htwo, hthree]
        decide
  have hcount : m.indexed.memberCount .field + 1 = 3 := by
    rw [← hthree, ← ModuleTables.startAt_behind, hrows]
  obtain ⟨members, hruns, hmembers⟩ := (member_runs hopen .field).1 horder
  obtain ⟨row, hrow⟩ : ∃ row, (m.indexed.owners .method).get? 1 = some row :=
    Option.isSome_iff_exists.mp (hreadable 1 (by decide))
  obtain ⟨-, -, none, -, -, -, hnone⟩ := (member_runs hopen .method).2 1 row hrow
  have hzero : MemberList.method.startOf row = 0 := by
    rw [← hmethod, ModuleTables.startAt_of_get? hrow]
  rw [if_neg (by simp [ModuleTables.RunFits, hzero])] at hnone
  obtain ⟨warning, -, htoken, hrun⟩ := hnone
  refine ⟨m, hopen, horder, ⟨members, hruns, ?_⟩, row, warning, none, hrow, hrun, htoken⟩
  rw [hone, hcount] at hmembers
  exact List.map_injective_iff.mpr (Option.some_injective ℕ) (hmembers.trans hplaces)

end OpenModule

end TypeInventory
