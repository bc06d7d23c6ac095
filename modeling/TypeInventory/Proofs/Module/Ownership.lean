import TypeInventory.Proofs.Module.Runs

set_option relaxedAutoImplicit false
set_option autoImplicit false

/-!
# Owners of methods

The marks of compiler-made code are found through the type that owns a method. This type is searched
for among the stated runs of methods, while the members of a type come from its run as far as it
lies within the list. The two agree on runs that lie within their list, and this module tells
exactly where else they do.

## Main definitions

* `ModuleTables.ownerOf?` — the owner of a method as it is searched for.
* `ModuleTables.StatedIn` — the stated run of a type holds a method.
* `ModuleTables.ownerByRuns?` — the first type among whose members a method is.
* `ModuleTables.SearchesLikeRuns` — the condition under which both are the same.

## Main results

* `ModuleTables.ownerOf?_eq_find?` — the search finds the first type whose stated run holds a
  method, among the types up to the first unreadable one.
* `ModuleTables.mem_membersOf_iff` — when a stated run and the members agree.
* `ModuleTables.ownerOf?_eq_iff` — the exact condition for one method.
* `ModuleTables.ownerOf?_of_fits` — types that can be read and whose runs lie within the list.
* `ModuleTables.method_owners` — the owners of methods in an opened module.
* `OpenModule.owner_beside_runs` — a method with an owner among whose members it is not.
-/

namespace TypeInventory

namespace ModuleTables

variable (m : ModuleTables)

/-- The owner of a method, as it is searched for. -/
def ownerOf? (method : ℕ) : Option ℕ :=
  m.methodOwner? (m.methodRuns m.typeDefs.rows) method

/-- The stated run of a type holds a method: from where it starts up to where that of the next type
starts, some place leads to the method. -/
def StatedIn (rid method : ℕ) : Prop :=
  ∃ place, m.startAt .method rid ≤ place ∧ place < m.startAt .method (rid + 1) ∧
    m.memberAt? .method place = some method

/-- The first type, in the order of rows, among whose members a method is. -/
def ownerByRuns? (method : ℕ) : Option ℕ :=
  (List.range' 1 m.typeDefs.rowCount).find? fun rid => (m.membersOf .method rid).contains method

/-! ## Stated runs -/

variable {m} {rid method place : ℕ}

/-- Where there are pointers, only the places of the list lead anywhere. -/
lemma memberAt?_bounds (hpointers : m.methodPtrs.rowCount ≠ 0)
    (h : m.memberAt? .method place = some method) :
    1 ≤ place ∧ place ≤ m.memberCount .method := by
  simp only [memberAt?, if_neg hpointers, Option.map_eq_some_iff] at h
  obtain ⟨row, hrow, -⟩ := h
  have hinside := (@Table.get?_eq_some_iff .methodPtr m.methodPtrs place row).mp hrow
  simp only [memberCount, if_neg hpointers]
  exact hinside.1

/-- A run holds a method if one of its places leads there. -/
lemma runHolds_iff (start stop : ℕ) :
    m.runHolds start stop method = true ↔
      ∃ place, start ≤ place ∧ place < stop ∧ m.memberAt? .method place = some method := by
  rw [runHolds]
  split_ifs with hpointers
  · simp only [memberAt?, if_pos hpointers, Option.some.injEq, Bool.and_eq_true, decide_eq_true_eq]
    constructor
    · rintro ⟨hstart, hstop⟩
      exact ⟨method, hstart, hstop, rfl⟩
    · rintro ⟨place, hstart, hstop, rfl⟩
      exact ⟨hstart, hstop⟩
  · rw [List.contains_iff_mem, membersBetween, List.mem_filterMap]
    constructor
    · rintro ⟨place, hplace, hmember⟩
      rw [List.mem_range'_1] at hplace
      exact ⟨place, by omega, by omega, hmember⟩
    · rintro ⟨place, hstart, hstop, hmember⟩
      have hbounds := memberAt?_bounds hpointers hmember
      refine ⟨place, ?_, hmember⟩
      rw [List.mem_range'_1]
      omega

/-- Behind the rows that are read in order, a run would start behind the last place. -/
lemma startAt_succ_length : m.startAt .method (m.typeDefs.rows.length + 1) =
    m.memberCount .method + 1 := by
  obtain ⟨hle, -, hnext⟩ := @Table.rows_eq_first .typeDef m.typeDefs
  have hnone : (m.owners .method).get? (m.typeDefs.rows.length + 1) = none := by
    rcases Nat.lt_or_eq_of_le hle with hlt | heq
    · exact hnext hlt
    · exact Table.get?_eq_none_of_outside (.inr (Nat.lt_succ_of_le heq.ge))
  rw [startAt, hnone]
  rfl

variable (m) in
/-- The runs that are searched are the stated runs of the types up to the first unreadable one. -/
lemma methodRuns_rows :
    m.methodRuns m.typeDefs.rows = (List.range' 1 m.typeDefs.rows.length).map fun rid =>
      (rid, m.startAt .method rid, m.startAt .method (rid + 1)) := by
  have hrow : ∀ i (hi : i < m.typeDefs.rows.length), m.typeDefs.rows[i].rid = i + 1 ∧
      m.startAt .method (i + 1) = m.typeDefs.rows[i].methodList := by
    intro i hi
    have hget := @Table.get?_succ_of_lt_length .typeDef m.typeDefs i hi
    exact ⟨@ownerNumber_of_get? m .method _ _ hget, @startAt_of_get? m .method _ _ hget⟩
  apply List.ext_getElem
  · simp only [methodRuns, List.length_zipWith, List.length_append, List.length_map,
      List.length_drop, List.length_singleton, List.length_range']
    omega
  · intro i hi hi'
    rw [List.length_map, List.length_range'] at hi'
    simp only [methodRuns, List.getElem_zipWith, List.getElem_map, List.getElem_range', Nat.one_mul,
      Nat.add_comm 1 i, Prod.mk.injEq]
    obtain ⟨hrid, hstart⟩ := hrow i hi'
    refine ⟨hrid, hstart.symm, ?_⟩
    by_cases hnext : i + 1 < m.typeDefs.rows.length
    · rw [List.getElem_append_left (by simp; omega), (hrow (i + 1) hnext).2]
      simp
    · have hlast : m.typeDefs.rows.length = i + 1 := by omega
      rw [List.getElem_append_right (by simp; omega), List.getElem_singleton, ← hlast,
        startAt_succ_length]

variable (m method) in
/-- **The search finds the first type whose stated run holds the method**, among the types up to the
first unreadable one. -/
lemma ownerOf?_eq_find? :
    m.ownerOf? method = (List.range' 1 m.typeDefs.rows.length).find? fun rid =>
      m.runHolds (m.startAt .method rid) (m.startAt .method (rid + 1)) method := by
  rw [ownerOf?, methodOwner?, methodRuns_rows, List.find?_map, Option.map_map]
  exact congrFun Option.map_id _

/-! ## Stated runs and members -/

/-- The members of a type are those that its stated run holds, if this run does not start at zero
and if the method is in the list, which pointers see to. -/
lemma mem_membersOf_iff :
    method ∈ m.membersOf .method rid ↔
      m.StatedIn rid method ∧ m.startAt .method rid ≠ 0 ∧
        (m.methodPtrs.rowCount = 0 → method ≤ m.memberCount .method) := by
  rw [membersOf, List.mem_filterMap]
  constructor
  · rintro ⟨place, hplace, hmember⟩
    obtain ⟨-, hle⟩ := mem_coveredPlaces hplace
    unfold coveredPlaces at hplace
    split_ifs at hplace with hstart
    · rw [List.mem_range'_1] at hplace
      refine ⟨⟨place, by omega, by omega, hmember⟩, by omega, fun hpointers => ?_⟩
      simp only [memberAt?, if_pos hpointers, Option.some.injEq] at hmember
      omega
    · cases hplace
  · rintro ⟨⟨place, hstart, hstop, hmember⟩, hzero, hlist⟩
    have hle : place ≤ m.memberCount .method := by
      by_cases hpointers : m.methodPtrs.rowCount = 0
      · have hplace := hmember
        simp only [memberAt?, if_pos hpointers, Option.some.injEq] at hplace
        rw [hplace]
        exact hlist hpointers
      · exact (memberAt?_bounds hpointers hmember).2
    refine ⟨place, ?_, hmember⟩
    rw [coveredPlaces, if_pos (by omega), List.mem_range'_1]
    omega

/-- The condition under which a method is searched for where it is a member. The stated run of the
type that is found does not start at zero, and the method is in the list; and if no type is found,
the method is no member of a type behind the first unreadable one. -/
structure SearchesLikeRuns (m : ModuleTables) (method : ℕ) : Prop where
  /-- The type that is found has the method among its members. -/
  found : ∀ rid, m.ownerOf? method = some rid →
    m.startAt .method rid ≠ 0 ∧ (m.methodPtrs.rowCount = 0 → method ≤ m.memberCount .method)
  /-- If no type is found, none has the method among its members. -/
  unfound : m.ownerOf? method = none → ∀ rid, m.typeDefs.rows.length < rid →
    rid ≤ m.typeDefs.rowCount → method ∉ m.membersOf .method rid

/-- The search finds a type if its stated run is the first to hold the method. -/
lemma ownerOf?_eq_some_iff :
    m.ownerOf? method = some rid ↔
      m.StatedIn rid method ∧ (1 ≤ rid ∧ rid ≤ m.typeDefs.rows.length) ∧
        ∀ i, 1 ≤ i → i < rid → ¬m.StatedIn i method := by
  simp only [ownerOf?_eq_find?, List.find?_range'_eq_some, Bool.not_eq_eq_eq_not, Bool.not_true,
    ← Bool.not_eq_true, runHolds_iff, List.mem_range'_1, StatedIn, Nat.lt_one_add_iff]

lemma ownerOf?_eq_none_iff :
    m.ownerOf? method = none ↔
      ∀ i, 1 ≤ i → i ≤ m.typeDefs.rows.length → ¬m.StatedIn i method := by
  simp only [ownerOf?_eq_find?, List.find?_range'_eq_none, Bool.not_eq_eq_eq_not, Bool.not_true,
    ← Bool.not_eq_true, runHolds_iff, StatedIn, Nat.lt_one_add_iff]

lemma ownerByRuns?_eq_some_iff :
    m.ownerByRuns? method = some rid ↔
      method ∈ m.membersOf .method rid ∧ (1 ≤ rid ∧ rid ≤ m.typeDefs.rowCount) ∧
        ∀ i, 1 ≤ i → i < rid → method ∉ m.membersOf .method i := by
  simp only [ownerByRuns?, List.find?_range'_eq_some, Bool.not_eq_eq_eq_not, Bool.not_true,
    ← Bool.not_eq_true, List.contains_iff_mem, List.mem_range'_1, Nat.lt_one_add_iff]

lemma ownerByRuns?_eq_none_iff :
    m.ownerByRuns? method = none ↔
      ∀ i, 1 ≤ i → i ≤ m.typeDefs.rowCount → method ∉ m.membersOf .method i := by
  simp only [ownerByRuns?, List.find?_range'_eq_none, Bool.not_eq_eq_eq_not, Bool.not_true,
    ← Bool.not_eq_true, List.contains_iff_mem, Nat.lt_one_add_iff]

/-- **A method is searched for where it is a member exactly under this condition.**

**Proof sketch.** Among the members of a type are only methods that its stated run holds, so the
search stops no later than the first type with the method among its members, unless a row in front
of this type cannot be read. Where it stops, the condition makes the method a member. -/
lemma ownerOf?_eq_iff :
    m.ownerOf? method = m.ownerByRuns? method ↔ m.SearchesLikeRuns method := by
  have hlength : m.typeDefs.rows.length ≤ m.typeDefs.rowCount :=
    (@Table.rows_eq_first .typeDef m.typeDefs).1
  constructor
  · intro h
    refine ⟨fun rid hfound => ?_, fun hnone rid _ hle => ?_⟩
    · rw [hfound, eq_comm, ownerByRuns?_eq_some_iff] at h
      exact (mem_membersOf_iff.mp h.1).2
    · rw [hnone, eq_comm, ownerByRuns?_eq_none_iff] at h
      exact h rid (by omega) hle
  · intro h
    cases hsearch : m.ownerOf? method with
    | some rid =>
      obtain ⟨hstated, ⟨hone, hle⟩, hfirst⟩ := ownerOf?_eq_some_iff.mp hsearch
      refine (ownerByRuns?_eq_some_iff.mpr ⟨?_, ⟨hone, by omega⟩, fun i hi hlt hmem => ?_⟩).symm
      · exact mem_membersOf_iff.mpr ⟨hstated, h.found rid hsearch⟩
      · exact hfirst i hi hlt (mem_membersOf_iff.mp hmem).1
    | none =>
      refine (ownerByRuns?_eq_none_iff.mpr fun i hi hle hmem => ?_).symm
      by_cases hread : i ≤ m.typeDefs.rows.length
      · exact ownerOf?_eq_none_iff.mp hsearch i hi hread (mem_membersOf_iff.mp hmem).1
      · exact h.unfound hsearch i (by omega) hle hmem

/-- Where all types can be read and all runs lie within the list, every method is searched for where
it is a member. -/
lemma ownerOf?_of_fits (hread : m.typeDefs.rows.length = m.typeDefs.rowCount)
    (hfits : ∀ rid, 1 ≤ rid → rid ≤ m.typeDefs.rowCount →
      RunFits (m.memberCount .method) (m.startAt .method rid) (m.startAt .method (rid + 1))) :
    m.ownerOf? method = m.ownerByRuns? method := by
  rw [ownerOf?_eq_iff]
  refine ⟨fun rid hfound => ?_, fun _ rid hlt hle => by omega⟩
  obtain ⟨⟨place, hstart, hstop, hmember⟩, ⟨hone, hle⟩, -⟩ := ownerOf?_eq_some_iff.mp hfound
  obtain ⟨hpos, -, hlast⟩ := hfits rid hone (by omega)
  refine ⟨by omega, fun hpointers => ?_⟩
  simp only [memberAt?, if_pos hpointers, Option.some.injEq] at hmember
  omega

/-- **Owners of methods.** The members of a type are those that its run gives while the type is
resolved. The owner of a method is searched for elsewhere: it is the first type whose stated run
holds the method, among the types up to the first unreadable one. So it is the first type among
whose members the method is, or none if there is no such type, exactly if the stated run of the type
that is found does not start at zero and holds the method within the list, and if no type behind an
unreadable one is left out.

**Proof sketch.** The runs that are searched are the stated ones (`methodRuns_rows`), and the
members of a type are what its stated run holds within the list (`mem_membersOf_iff`). -/
theorem method_owners (m : ModuleTables) (method : ℕ) :
    (∀ rid row, m.typeDefs.get? rid = some row →
      ∃ warnings, m.memberRun .method row.token row.methodList
          ((m.typeDefs.get? (rid + 1)).map TypeDefRow.methodList) =
        .withWarnings warnings (m.membersOf .method rid)) ∧
    (∀ rid, m.ownerOf? method = some rid ↔
      m.StatedIn rid method ∧ (1 ≤ rid ∧ rid ≤ m.typeDefs.rows.length) ∧
        ∀ i, 1 ≤ i → i < rid → ¬m.StatedIn i method) ∧
    (m.ownerOf? method = m.ownerByRuns? method ↔ m.SearchesLikeRuns method) := by
  refine ⟨fun rid row hrow => ?_, fun rid => ownerOf?_eq_some_iff, ownerOf?_eq_iff⟩
  have hrun := @runOf_eq m .method rid row hrow
  obtain rfl := @ownerNumber_of_get? m .method rid row hrow
  split_ifs at hrun with hfits
  · exact ⟨[], hrun⟩
  · obtain ⟨warning, -, -, hrun⟩ := hrun
    exact ⟨[warning], hrun⟩

end ModuleTables

namespace OpenModule

/-- Metadata with two types and one method. The run of methods of the first type, which is the
attribute for compiler-made code, starts at zero and stops behind the method, where the empty run of
the second type starts. This type, `A`, carries an attribute that the method constructs. -/
def zeroStartMetadata : ByteArray :=
  ⟨
    #[0x42, 0x53, 0x4A, 0x42, 0x01, 0x00, 0x01, 0x00, 0x00, 0x00, 0x00, 0x00, 0x04, 0x00, 0x00,
      0x00, 0x76, 0x34, 0x00, 0x00, 0x00, 0x00, 0x02, 0x00, 0x38, 0x00, 0x00, 0x00, 0x54, 0x00,
      0x00, 0x00, 0x23, 0x7E, 0x00, 0x00, 0x8C, 0x00, 0x00, 0x00, 0x40, 0x00, 0x00, 0x00, 0x23,
      0x53, 0x74, 0x72, 0x69, 0x6E, 0x67, 0x73, 0x00, 0x00, 0x00, 0x00, 0x00, 0x00, 0x00, 0x00,
      0x02, 0x00, 0x00, 0x01, 0x44, 0x10, 0x00, 0x00, 0x00, 0x00, 0x00, 0x00, 0x00, 0x00, 0x00,
      0x00, 0x00, 0x00, 0x00, 0x00, 0x02, 0x00, 0x00, 0x00, 0x01, 0x00, 0x00, 0x00, 0x01, 0x00,
      0x00, 0x00, 0x00, 0x00, 0x00, 0x00, 0x21, 0x00, 0x01, 0x00, 0x00, 0x00, 0x01, 0x00, 0x00,
      0x00, 0x00, 0x00, 0x00, 0x00, 0x3C, 0x00, 0x00, 0x00, 0x00, 0x00, 0x01, 0x00, 0x02, 0x00,
      0x00, 0x00, 0x00, 0x00, 0x00, 0x00, 0x06, 0x00, 0x3C, 0x00, 0x00, 0x00, 0x01, 0x00, 0x43,
      0x00, 0x0A, 0x00, 0x00, 0x00, 0x00, 0x53, 0x79, 0x73, 0x74, 0x65, 0x6D, 0x2E, 0x52, 0x75,
      0x6E, 0x74, 0x69, 0x6D, 0x65, 0x2E, 0x43, 0x6F, 0x6D, 0x70, 0x69, 0x6C, 0x65, 0x72, 0x53,
      0x65, 0x72, 0x76, 0x69, 0x63, 0x65, 0x73, 0x00, 0x43, 0x6F, 0x6D, 0x70, 0x69, 0x6C, 0x65,
      0x72, 0x47, 0x65, 0x6E, 0x65, 0x72, 0x61, 0x74, 0x65, 0x64, 0x41, 0x74, 0x74, 0x72, 0x69,
      0x62, 0x75, 0x74, 0x65, 0x00, 0x41, 0x00, 0x00, 0x00]⟩

/-- **A method has an owner among whose members it is not.** The first type has no members at all,
since its run starts at zero, and the second one has none either. Still the first one is found as
the owner of the method, and so the second one is marked as compiler-made. -/
theorem owner_beside_runs :
    ∃ m, ofMetadata zeroStartMetadata = .ok m ∧
      m.indexed.ownerByRuns? 1 = none ∧ m.indexed.ownerOf? 1 = some 1 ∧
      (m.load none).1.types.map (fun type => (type.name, type.methods.length, type.isGenerated)) =
        [("CompilerGeneratedAttribute", 0, false), ("A", 0, true)] := by
  obtain ⟨m, hopen, htest⟩ : ∃ m, ofMetadata zeroStartMetadata = .ok m ∧
      decide (m.indexed.ownerByRuns? 1 = none ∧ m.indexed.ownerOf? 1 = some 1 ∧
        (m.load none).1.types.map
            (fun type => (type.name, type.methods.length, type.isGenerated)) =
          [("CompilerGeneratedAttribute", 0, false), ("A", 0, true)]) = true :=
    exists_ok_of_any (by decide +kernel)
  exact ⟨m, hopen, of_decide_eq_true htest⟩

end OpenModule

end TypeInventory
