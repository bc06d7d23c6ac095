import TypeInventory.Proofs.Naming.Recursion

set_option relaxedAutoImplicit false
set_option autoImplicit false

/-!
# The order of generic parameters

The rows of generic parameters come in any order. Each has a number, and the names of an owner's
parameters are put in the order of these numbers. A signature mentions a parameter by its number,
and this number is then taken as a place in that order. The two are the same as long as the numbers
have no gaps. A row whose name cannot be read is left out, though, so that all names behind it move
up by one place, and signatures show each of them instead of the one before.

## Main definitions

* `placeByNumber` — where an entry comes in the order of numbers.
* `IsInOrder`, `IsGapless` — names in the order of their numbers, and numbers without gaps.
* `OpenModule.parametersOf` — the readable parameters of a type or a method.

## Main results

* `isInOrder_orderByNumber` — ordering by insertion puts each entry in its place.
* `placeByNumber_of_isGapless`, `isGapless_of_placeByNumber` — numbers are places exactly when they
  have no gaps.
* `OpenModule.parameters_in_order` — which name a generic parameter is shown by.
* `OpenModule.shifted_parameters` — a module in which a parameter is shown by the name of another.
-/

namespace TypeInventory

/-! ## Ordering by numbers -/

/-- Numbered names are compared by their numbers alone. -/
def NumberLE (p q : ℕ × String) : Prop :=
  p.1 ≤ q.1

instance : DecidableRel NumberLE :=
  fun p q => inferInstanceAs (Decidable (p.1 ≤ q.1))

instance : Std.Total NumberLE :=
  ⟨fun p q => Nat.le_total p.1 q.1⟩

instance : IsTrans (ℕ × String) NumberLE :=
  ⟨fun _ _ _ => Nat.le_trans⟩

/-- Where the entry at place `i`, with number `number`, comes in the order of numbers: behind all
entries with smaller numbers, and behind the earlier ones with the same number. -/
def placeByNumber (named : List (ℕ × String)) (i number : ℕ) : ℕ :=
  named.countP (fun q => q.1 < number) + (named.take i).countP (fun q => q.1 = number)

/-- Names in the order of their numbers: they are all there, each in its place. -/
structure IsInOrder (named : List (ℕ × String)) (names : List String) : Prop where
  /-- There are no other names. -/
  length : names.length = named.length
  /-- Each name is in its place. -/
  place : ∀ i p, named[i]? = some p → names[placeByNumber named i p.1]? = some p.2

/-- The numbers 0, 1, … once each, in any order. -/
def IsGapless (named : List (ℕ × String)) : Prop :=
  (named.map Prod.fst).Perm (List.range named.length)

section Ordering

variable {named : List (ℕ × String)} {p q : ℕ × String}

/-- Entries are inserted as in sorting by insertion. -/
lemma insertByNumber_eq_orderedInsert :
    insertByNumber p named = named.orderedInsert NumberLE p := by
  induction named with
  | nil => rfl
  | cons q named ih =>
    rw [insertByNumber, List.orderedInsert_cons, ih]
    rfl

/-- Ordering the entries, of which the last one comes first, is sorting them by insertion. -/
lemma orderByNumber_reverse : orderByNumber named.reverse = named.insertionSort NumberLE := by
  rw [orderByNumber, List.foldl_reverse]
  simp only [insertByNumber_eq_orderedInsert]
  rfl

/-- An inserted entry comes behind those with smaller numbers. -/
lemma getElem?_orderedInsert_self (h : named.Pairwise NumberLE) :
    (named.orderedInsert NumberLE p)[named.countP (fun q => q.1 < p.1)]? = some p := by
  induction named with
  | nil => rfl
  | cons q named ih =>
    obtain ⟨hq, hnamed⟩ := List.pairwise_cons.mp h
    rw [List.orderedInsert_cons]
    split_ifs with hle
    · have hnone : (q :: named).countP (fun r => r.1 < p.1) = 0 := by
        rw [List.countP_eq_zero]
        intro r hr
        rcases List.mem_cons.mp hr with rfl | hr
        · simpa [NumberLE] using hle
        · simpa using Nat.le_trans hle (hq r hr)
      rw [hnone]
      rfl
    · have hlt : q.1 < p.1 := Nat.lt_of_not_le hle
      rw [List.countP_cons_of_pos (by simpa using hlt), List.getElem?_cons_succ]
      exact ih hnamed

/-- The entries whose numbers are not below that of an inserted one make room for it. -/
lemma getElem?_orderedInsert_of_getElem? {k : ℕ} (h : named.Pairwise NumberLE)
    (hk : named[k]? = some q) :
    (named.orderedInsert NumberLE p)[k + if p.1 ≤ q.1 then 1 else 0]? = some q := by
  induction named generalizing k with
  | nil => cases hk
  | cons r named ih =>
    obtain ⟨hr, hnamed⟩ := List.pairwise_cons.mp h
    have hrq : r.1 ≤ q.1 := by
      rcases List.mem_cons.mp (List.mem_of_getElem? hk) with rfl | hq
      · exact Nat.le_refl _
      · exact hr q hq
    rw [List.orderedInsert_cons]
    split_ifs with hle hpq hpq
    · exact hk
    · exact absurd (Nat.le_trans hle hrq) hpq
    · rcases k with _ | k
      · obtain rfl : r = q := Option.some.inj hk
        exact absurd hpq hle
      · have hroom := ih hnamed hk
        rw [if_pos hpq] at hroom
        rwa [Nat.succ_add, List.getElem?_cons_succ]
    · rcases k with _ | k
      · exact hk
      · have hroom := ih hnamed hk
        rwa [if_neg hpq] at hroom

/-- **Sorting by insertion puts each entry in its place.**

**Proof sketch.** By induction on the entries. The first one is inserted last, behind all smaller
numbers. Each other one moves by one place exactly if its number is not smaller, and this is how
much the first entry adds to its place. -/
lemma getElem?_insertionSort {i : ℕ} (h : named[i]? = some p) :
    (named.insertionSort NumberLE)[placeByNumber named i p.1]? = some p := by
  induction named generalizing i with
  | nil => cases h
  | cons q named ih =>
    have hsorted := List.pairwise_insertionSort NumberLE named
    have hcount : ∀ n : ℕ, (named.insertionSort NumberLE).countP (fun r => r.1 < n) =
        named.countP (fun r => r.1 < n) :=
      fun n => (List.perm_insertionSort NumberLE named).countP_eq _
    rw [List.insertionSort_cons]
    rcases i with _ | i
    · obtain rfl : q = p := Option.some.inj h
      have hplace := getElem?_orderedInsert_self (p := q) hsorted
      rw [hcount] at hplace
      simpa [placeByNumber] using hplace
    · have hplace := getElem?_orderedInsert_of_getElem? (p := q) hsorted (ih h)
      have hmoved : placeByNumber (q :: named) (i + 1) p.1 =
          placeByNumber named i p.1 + if q.1 ≤ p.1 then 1 else 0 := by
        simp only [placeByNumber, List.take_succ_cons, List.countP_cons, decide_eq_true_eq]
        split_ifs <;> omega
      rwa [hmoved]

/-- **Ordering by numbers puts each name in its place.** -/
lemma isInOrder_orderByNumber :
    IsInOrder named ((orderByNumber named.reverse).map Prod.snd) := by
  rw [orderByNumber_reverse]
  refine ⟨by simp, fun i p h => ?_⟩
  rw [List.getElem?_map, getElem?_insertionSort h]
  rfl

/-! ## Numbers without gaps -/

/-- Below a number there are as many numbers as it says. -/
lemma countP_lt_range (n bound : ℕ) :
    (List.range bound).countP (fun k => k < n) = min n bound := by
  induction bound with
  | zero => simp
  | succ bound ih =>
    rw [List.range_succ, List.countP_append, ih, List.countP_singleton]
    simp only [decide_eq_true_eq]
    split_ifs <;> omega

/-- **If numbers have no gaps, they are the places of their names.** -/
lemma placeByNumber_of_isGapless {i : ℕ} (h : IsGapless named) (hi : named[i]? = some p) :
    placeByNumber named i p.1 = p.1 := by
  have hbound : p.1 < named.length := by
    have hmem : p.1 ∈ named.map Prod.fst := List.mem_map_of_mem (List.mem_of_getElem? hi)
    rwa [h.mem_iff, List.mem_range] at hmem
  have hbelow : named.countP (fun q => q.1 < p.1) = p.1 := by
    have hcount := h.countP_eq fun k => k < p.1
    rw [countP_lt_range, List.countP_map, Nat.min_eq_left hbound.le] at hcount
    exact hcount
  have honce : (named.map Prod.fst).Nodup := h.nodup_iff.mpr List.nodup_range
  have hearlier : (named.take i).countP (fun q => q.1 = p.1) = 0 := by
    rw [List.countP_eq_zero]
    intro q hq heq
    obtain ⟨j, hj⟩ := List.mem_iff_getElem?.mp hq
    rw [List.getElem?_take] at hj
    split_ifs at hj with hlt
    have hj' : (named.map Prod.fst)[j]? = some p.1 := by
      rw [List.getElem?_map, hj]
      simpa using heq
    have hi' : (named.map Prod.fst)[i]? = some p.1 := by
      rw [List.getElem?_map, hi]
      rfl
    have hlength : j < (named.map Prod.fst).length := by
      obtain ⟨hlength, -⟩ := List.getElem?_eq_some_iff.mp hj'
      exact hlength
    have hji : j = i := (List.getElem?_inj hlength honce).mp (hj'.trans hi'.symm)
    omega
  rw [placeByNumber, hbelow, hearlier, Nat.add_zero]

/-- Numbers that are places have no gaps. -/
lemma isGapless_of_placeByNumber
    (h : ∀ i p, named[i]? = some p → placeByNumber named i p.1 = p.1) : IsGapless named := by
  have hbound : ∀ n ∈ named.map Prod.fst, n ∈ List.range named.length := by
    intro n hn
    obtain ⟨p, hp, rfl⟩ := List.mem_map.mp hn
    obtain ⟨i, hi⟩ := List.mem_iff_getElem?.mp hp
    have hplace := getElem?_insertionSort hi
    rw [h i p hi] at hplace
    obtain ⟨hlt, -⟩ := List.getElem?_eq_some_iff.mp hplace
    rwa [List.length_insertionSort, ← List.mem_range] at hlt
  have honce : (named.map Prod.fst).Nodup := by
    rw [List.nodup_iff_getElem?_ne_getElem?]
    intro i j hij hj heq
    rw [List.length_map] at hj
    have hgetI := List.getElem?_eq_getElem (Nat.lt_trans hij hj)
    have hgetJ := List.getElem?_eq_getElem hj
    have hnumber : named[i].1 = named[j].1 := by
      simpa [hgetI, hgetJ] using heq
    have hI := h i _ hgetI
    have hJ := h j _ hgetJ
    -- The entry at `i` is one of those in front of `j` with the same number.
    have hmore : (named.take (i + 1)).countP (fun q => q.1 = named[j].1) ≤
        (named.take j).countP (fun q => q.1 = named[j].1) :=
      (List.take_sublist_take_left hij).countP_le
    rw [List.take_add_one, hgetI, List.countP_append] at hmore
    simp only [Option.toList_some, List.countP_singleton, hnumber, decide_true, if_true] at hmore
    rw [hnumber] at hI
    simp only [placeByNumber] at hI hJ
    omega
  exact (honce.subperm hbound).perm_of_length_le (by simp)

end Ordering

namespace IsInOrder

variable {named : List (ℕ × String)} {names : List String}

/-- If numbers have no gaps, each of them gives its name. -/
lemma getElem?_eq_some (h : IsInOrder named names) (hgapless : IsGapless named) {n : ℕ}
    {name : String} (hmem : (n, name) ∈ named) : names[n]? = some name := by
  obtain ⟨i, hi⟩ := List.mem_iff_getElem?.mp hmem
  have hplace := h.place i (n, name) hi
  rwa [placeByNumber_of_isGapless hgapless hi] at hplace

/-- If numbers have no gaps, no other number gives a name. -/
lemma getElem?_eq_none (h : IsInOrder named names) (hgapless : IsGapless named) {n : ℕ}
    (hnone : n ∉ named.map Prod.fst) : names[n]? = none := by
  rw [hgapless.mem_iff, List.mem_range, Nat.not_lt] at hnone
  rw [List.getElem?_eq_none_iff, h.length]
  exact hnone

end IsInOrder

/-! ## The parameters of an owner -/

namespace OpenModule

/-- The generic parameters. -/
def genericParams (m : OpenModule) : Table GenericParamRow :=
  m.tables.table GenericParamRow

/-- The number and the name of a row of generic parameters, if it is about the given owner and its
name can be read. -/
def parameterOf? (strings : StringHeap) (owners : TableId) (owner : ℕ) (row : GenericParamRow) :
    Option (ℕ × String) :=
  if row.owner.table = owners ∧ row.owner.token.row = owner then
    (strings.get row.name).toOption.map (row.number, ·)
  else
    none

/-- The readable parameters of a type or a method, each with its number, in the order of rows. -/
def parametersOf (m : OpenModule) (owners : TableId) (owner : ℕ) : List (ℕ × String) :=
  m.genericParams.rows.filterMap (parameterOf? m.strings owners owner)

/-- What is collected for an owner are its entries, the last one first. -/
lemma getD_collected (owners : TableId) (owner : ℕ) (named : List (GenericParamRow × String))
    (known : Std.TreeMap ℕ (List (ℕ × String))) :
    (named.foldl
      (fun names (row, name) =>
        if row.owner.table = owners then
          names.insert row.owner.token.row
            ((row.number, name) :: names.getD row.owner.token.row [])
        else names) known).getD owner [] =
      ((named.filter fun p => p.1.owner.table = owners ∧ p.1.owner.token.row = owner).map
        fun p => (p.1.number, p.2)).reverse ++ known.getD owner [] := by
  induction named generalizing known with
  | nil => rfl
  | cons p named ih =>
    rw [List.foldl_cons, ih]
    by_cases htable : p.1.owner.table = owners
    · by_cases howner : p.1.owner.token.row = owner
      · rw [List.filter_cons_of_pos (by simp [htable, howner])]
        simp [htable, howner]
      · rw [List.filter_cons_of_neg (by simp [htable, howner])]
        simp [htable, howner, Std.TreeMap.getD_insert]
    · rw [List.filter_cons_of_neg (by simp [htable])]
      simp [htable]

/-- The entries of an owner are its readable rows. -/
lemma filter_namedGenerics (strings : StringHeap) (owners : TableId) (owner : ℕ)
    (rows : List GenericParamRow) :
    ((namedGenerics strings rows).2.filter fun p =>
        p.1.owner.table = owners ∧ p.1.owner.token.row = owner).map (fun p => (p.1.number, p.2)) =
      rows.filterMap (parameterOf? strings owners owner) := by
  induction rows with
  | nil => rfl
  | cons row rows ih =>
    rw [List.filterMap_cons, ← ih, parameterOf?]
    cases hname : strings.get row.name with
    | ok name =>
      rw [namedGenerics_cons_of_ok hname, List.filter_cons]
      simp only [decide_eq_true_eq]
      split_ifs <;> rfl
    | error e =>
      rw [namedGenerics_cons_of_error hname]
      split_ifs <;> rfl

/-- **The names of an owner's parameters are in the order of their numbers.** -/
lemma isInOrder_genericNames (m : OpenModule) (owners : TableId) (owner : ℕ) :
    IsInOrder (m.parametersOf owners owner)
      ((genericNames owners (namedGenerics m.strings m.genericParams.rows).2)[owner]?.getD []) := by
  have hcollected := getD_collected owners owner (namedGenerics m.strings m.genericParams.rows).2 ∅
  rw [filter_namedGenerics, Std.TreeMap.getD_emptyc, List.append_nil,
    Std.TreeMap.getD_eq_getD_getElem?] at hcollected
  have hmap : ∀ entries? : Option (List (ℕ × String)),
      (entries?.map fun names => (orderByNumber names).map Prod.snd).getD [] =
        (orderByNumber (entries?.getD [])).map Prod.snd := by
    intro entries?
    cases entries? <;> rfl
  rw [genericNames, Std.TreeMap.getElem?_map, hmap, hcollected]
  exact isInOrder_orderByNumber

/-- All rows of generic parameters can be read, as both values of the tag of an owner select a
table. -/
lemma isSome_get?_genericParams {metadata : ByteArray} {m : OpenModule}
    (hopen : ofMetadata metadata = .ok m) {rid : ℕ} (hone : 1 ≤ rid)
    (hle : rid ≤ m.genericParams.rowCount) : (m.genericParams.get? rid).isSome := by
  obtain ⟨stream, -, hstream⟩ := exists_tables hopen
  unfold genericParams at hle ⊢
  generalize m.tables = s at hstream hle ⊢
  obtain ⟨-, -, starts, hlocate, rfl⟩ := TableStream.ofBytes_eq_ok_iff.mp hstream
  have hplaces : TableStream.RowsInPlace (TableStream.declared stream starts) .genericParam :=
    TableStream.rowsInPlace_of_adjacent (TableStream.adjacent_of_locate hlocate) .genericParam
  obtain ⟨start, -, -, -, hnone⟩ := hplaces.inside rid hone hle
  rw [Option.isSome_iff_ne_none]
  intro h
  obtain ⟨x, hx, hbad⟩ := hnone.mp h
  have hcolumns : RowKind.genericParam.table.columns =
      [.word16, .word16, .coded .typeOrMethodDef, .string] := rfl
  rw [hcolumns] at hx
  simp only [Layout.stored, List.mem_cons, List.not_mem_nil, or_false] at hx
  rcases hx with rfl | rfl | rfl | rfl
  · exact hbad trivial
  · exact hbad trivial
  · exact hbad (Nat.mod_lt _ (by decide))
  · exact hbad trivial

/-- So the rows in order are all of them. -/
lemma map_some_rows_genericParams {metadata : ByteArray} {m : OpenModule}
    (hopen : ofMetadata metadata = .ok m) :
    m.genericParams.rows.map some =
      (List.range' 1 m.genericParams.rowCount).map m.genericParams.get? := by
  obtain ⟨hlength, hrows, -⟩ := @Table.rows_eq_first .genericParam m.genericParams
  have hall : m.genericParams.rowCount ≤ m.genericParams.rows.length :=
    (@Table.le_length_rows_iff .genericParam m.genericParams _ (Nat.le_refl _)).mpr
      fun rid => isSome_get?_genericParams hopen
  rwa [Nat.le_antisymm hlength hall] at hrows

/-! ## How parameters are shown -/

/-- What is shown for each number is the name that has the number, or a mark of its own if no name
has it. -/
def ShownByNumber (named : List (ℕ × String)) (mark : ℕ → String)
    (shown : ℕ → Except Fault TypeName) : Prop :=
  ∀ n, (∀ name, (n, name) ∈ named → shown n = .ok (.plain name)) ∧
    (n ∉ named.map Prod.fst → shown n = .ok (.plain (mark n)))

/-- Numbers without gaps are shown by their names. -/
lemma shownByNumber_of_isGapless {named : List (ℕ × String)} {names : List String}
    (mark : ℕ → String) (h : IsInOrder named names) (hgapless : IsGapless named) :
    ShownByNumber named mark fun n => .ok (.plain (names[n]?.getD (mark n))) := by
  refine fun n => ⟨fun name hmem => ?_, fun hnone => ?_⟩
  · simp only
    rw [h.getElem?_eq_some hgapless hmem]
    rfl
  · simp only
    rw [h.getElem?_eq_none hgapless hnone]
    rfl

/-- **How generic parameters are shown.** Let a module be opened from any metadata. All of its rows
of generic parameters count. While the members of a type are resolved, the parameters of the type
and of the method have the names of its readable rows, in the order of their numbers; rows with the
same number stay in their order. A signature that mentions a parameter by its number shows the name
in this place, at any depth, or a mark if there is none. So it shows the names by their numbers,
whatever the order of the rows, as long as the readable rows have numbers without gaps, and these
are the numbers that are places.

**Proof sketch.** The names of an owner are collected from its readable rows and inserted one by one
(`isInOrder_genericNames`). Counting shows that an entry is in the place of its own number exactly
if no number below it is missing or there twice (`placeByNumber_of_isGapless`,
`isGapless_of_placeByNumber`). -/
theorem parameters_in_order {metadata : ByteArray} {m : OpenModule}
    (hopen : ofMetadata metadata = .ok m) :
    m.genericParams.rows.map some =
      (List.range' 1 m.genericParams.rowCount).map m.genericParams.get? ∧
    (∀ row type, (m.indexed.resolveType row).result = .ok (some type) →
      m.indexed.NamesMembers row type) ∧
    (∀ owner rid,
      IsInOrder (m.parametersOf .typeDef owner) (m.indexed.fieldScope owner).typeParameters ∧
      IsInOrder (m.parametersOf .typeDef owner) (m.indexed.methodScope owner rid).typeParameters ∧
      IsInOrder (m.parametersOf .methodDef rid)
        (m.indexed.methodScope owner rid).methodParameters) ∧
    (∀ scope levels n,
      m.indexed.nameWithin scope (levels + 1) (.signature (.typeParameter n)) =
        .ok (.plain (scope.typeParameters[n]?.getD s!"!{n}")) ∧
      m.indexed.nameWithin scope (levels + 1) (.signature (.methodParameter n)) =
        .ok (.plain (scope.methodParameters[n]?.getD s!"!!{n}"))) ∧
    (∀ named, IsGapless named ↔ ∀ i p, named[i]? = some p → placeByNumber named i p.1 = p.1) ∧
    ∀ owner rid levels,
      (IsGapless (m.parametersOf .typeDef owner) →
        ShownByNumber (m.parametersOf .typeDef owner) (fun n => s!"!{n}") (fun n =>
          m.indexed.nameWithin (m.indexed.fieldScope owner) (levels + 1)
            (.signature (.typeParameter n))) ∧
        ShownByNumber (m.parametersOf .typeDef owner) (fun n => s!"!{n}") (fun n =>
          m.indexed.nameWithin (m.indexed.methodScope owner rid) (levels + 1)
            (.signature (.typeParameter n)))) ∧
      (IsGapless (m.parametersOf .methodDef rid) →
        ShownByNumber (m.parametersOf .methodDef rid) (fun n => s!"!!{n}") fun n =>
          m.indexed.nameWithin (m.indexed.methodScope owner rid) (levels + 1)
            (.signature (.methodParameter n))) := by
  refine ⟨map_some_rows_genericParams hopen,
    fun row type => MetadataModule.namesMembers_of_resolveType, fun owner rid => ?_,
    fun scope levels n => ⟨rfl, rfl⟩, fun named => ?_, fun owner rid levels => ⟨?_, ?_⟩⟩
  · exact ⟨m.isInOrder_genericNames .typeDef owner, m.isInOrder_genericNames .typeDef owner,
      m.isInOrder_genericNames .methodDef rid⟩
  · exact ⟨fun h i p => placeByNumber_of_isGapless h, isGapless_of_placeByNumber⟩
  · intro hgapless
    have hshown := shownByNumber_of_isGapless (fun n => s!"!{n}")
      (m.isInOrder_genericNames .typeDef owner) hgapless
    exact ⟨hshown, hshown⟩
  · intro hgapless
    exact shownByNumber_of_isGapless _ (m.isInOrder_genericNames .methodDef rid) hgapless

/-- Metadata with a generic type that has a field for each of its two parameters, and with the given
rows of parameters. -/
def genericTypeMetadata (parameterRows : Array UInt8) : ByteArray :=
  ⟨
    #[0x42, 0x53, 0x4A, 0x42, 0x01, 0x00, 0x01, 0x00, 0x00, 0x00, 0x00, 0x00, 0x04, 0x00, 0x00,
      0x00, 0x76, 0x34, 0x00, 0x00, 0x00, 0x00, 0x03, 0x00, 0x48, 0x00, 0x00, 0x00, 0x4E, 0x00,
      0x00, 0x00, 0x23, 0x7E, 0x00, 0x00, 0x96, 0x00, 0x00, 0x00, 0x07, 0x00, 0x00, 0x00, 0x23,
      0x53, 0x74, 0x72, 0x69, 0x6E, 0x67, 0x73, 0x00, 0x00, 0x00, 0x00, 0x9D, 0x00, 0x00, 0x00,
      0x09, 0x00, 0x00, 0x00, 0x23, 0x42, 0x6C, 0x6F, 0x62, 0x00, 0x00, 0x00, 0x00, 0x00, 0x00,
      0x00, 0x02, 0x00, 0x00, 0x01, 0x14, 0x00, 0x00, 0x00, 0x00, 0x04, 0x00, 0x00, 0x00, 0x00,
      0x00, 0x00, 0x00, 0x00, 0x00, 0x00, 0x01, 0x00, 0x00, 0x00, 0x02, 0x00, 0x00, 0x00, 0x02,
      0x00, 0x00, 0x00, 0x00, 0x00, 0x00, 0x00, 0x01, 0x00, 0x00, 0x00, 0x00, 0x00, 0x01, 0x00,
      0x01, 0x00, 0x00, 0x00, 0x01, 0x00, 0x01, 0x00, 0x00, 0x00, 0x01, 0x00, 0x05, 0x00] ++
    parameterRows ++
    #[0x00, 0x41, 0x00, 0x55, 0x00, 0x56, 0x00, 0x00, 0x03, 0x06, 0x13, 0x00, 0x03, 0x06, 0x13,
      0x01]⟩

/-- **A parameter is shown by the name of another.** The type has one parameter with number 0, whose
name cannot be read, and one with number 1, whose name can. The field of the type of the first shows
the name of the second, and the field of the type of the second shows none. -/
theorem shifted_parameters :
    ∃ m, ofMetadata (genericTypeMetadata
        #[0x00, 0x00, 0x00, 0x00, 0x02, 0x00, 0xC8, 0x00, 0x01, 0x00, 0x00, 0x00, 0x02, 0x00, 0x03,
          0x00]) = .ok m ∧
      m.genericParams.rows = [⟨1, 0, 0, ⟨.typeDef, 1⟩, 200⟩, ⟨2, 1, 0, ⟨.typeDef, 1⟩, 3⟩] ∧
      (m.strings.get 200).toOption = none ∧ m.strings.get 3 = .ok "U" ∧
      (∀ levels, m.indexed.nameWithin (m.indexed.fieldScope 1) (levels + 1)
          (.signature (.typeParameter 0)) = .ok (.plain "U") ∧
        m.indexed.nameWithin (m.indexed.fieldScope 1) (levels + 1)
          (.signature (.typeParameter 1)) = .ok (.plain "!1")) ∧
      (m.load none).1.types.map (fun type => type.fields.map fun f => f.type.simpleName) =
        [["U", "!1"]] := by
  obtain ⟨m, hopen, htest⟩ : ∃ m, ofMetadata (genericTypeMetadata
        #[0x00, 0x00, 0x00, 0x00, 0x02, 0x00, 0xC8, 0x00, 0x01, 0x00, 0x00, 0x00, 0x02, 0x00, 0x03,
          0x00]) = .ok m ∧
      decide (m.genericParams.rows =
          [⟨1, 0, 0, ⟨.typeDef, 1⟩, 200⟩, ⟨2, 1, 0, ⟨.typeDef, 1⟩, 3⟩] ∧
        (m.strings.get 200).toOption = none ∧ (m.strings.get 3).toOption = some "U" ∧
        (m.indexed.fieldScope 1).typeParameters = ["U"] ∧
        (m.load none).1.types.map (fun type => type.fields.map fun f => f.type.simpleName) =
          [["U", "!1"]]) = true :=
    exists_ok_of_any (by decide +kernel)
  obtain ⟨hrows, hunreadable, hname, hscope, hshown⟩ := of_decide_eq_true htest
  refine ⟨m, hopen, hrows, hunreadable, eq_ok_of_toOption_eq_some hname, fun levels => ?_, hshown⟩
  constructor
  · show Except.ok (TypeName.plain ((m.indexed.fieldScope 1).typeParameters[0]?.getD "!0")) = _
    rw [hscope]
    rfl
  · show Except.ok (TypeName.plain ((m.indexed.fieldScope 1).typeParameters[1]?.getD "!1")) = _
    rw [hscope]
    rfl

/-- The same type with two readable rows by the general law: they come in the wrong order, and each
field shows the right name. -/
theorem shown_reversedParameters :
    ∃ m, ofMetadata (genericTypeMetadata
        #[0x01, 0x00, 0x00, 0x00, 0x02, 0x00, 0x05, 0x00, 0x00, 0x00, 0x00, 0x00, 0x02, 0x00, 0x03,
          0x00]) = .ok m ∧
      m.parametersOf .typeDef 1 = [(1, "V"), (0, "U")] ∧
      ∀ levels, m.indexed.nameWithin (m.indexed.fieldScope 1) (levels + 1)
          (.signature (.typeParameter 0)) = .ok (.plain "U") ∧
        m.indexed.nameWithin (m.indexed.fieldScope 1) (levels + 1)
          (.signature (.typeParameter 1)) = .ok (.plain "V") ∧
        m.indexed.nameWithin (m.indexed.fieldScope 1) (levels + 1)
          (.signature (.typeParameter 2)) = .ok (.plain "!2") := by
  obtain ⟨m, hopen, htest⟩ : ∃ m, ofMetadata (genericTypeMetadata
        #[0x01, 0x00, 0x00, 0x00, 0x02, 0x00, 0x05, 0x00, 0x00, 0x00, 0x00, 0x00, 0x02, 0x00, 0x03,
          0x00]) = .ok m ∧
      decide (m.parametersOf .typeDef 1 = [(1, "V"), (0, "U")]) = true :=
    exists_ok_of_any (by decide +kernel)
  have hparameters := of_decide_eq_true htest
  refine ⟨m, hopen, hparameters, fun levels => ?_⟩
  have hgapless : IsGapless (m.parametersOf .typeDef 1) := by
    rw [hparameters]
    exact List.Perm.swap 0 1 []
  obtain ⟨hfields, -⟩ := ((parameters_in_order hopen).2.2.2.2.2 1 1 levels).1 hgapless
  rw [hparameters] at hfields
  refine ⟨(hfields 0).1 "U" (by simp), (hfields 1).1 "V" (by simp), (hfields 2).2 (by simp)⟩

end OpenModule

end TypeInventory
