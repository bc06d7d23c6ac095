import TypeInventory.Proofs.Module.Completeness

set_option relaxedAutoImplicit false
set_option autoImplicit false

/-!
# Full names

The full name of a type is found by going from the type to the one that encloses it, and so on. The
table that tells which type encloses which may hold anything: two rows about one type, types that
enclose themselves or each other, and rows that are not there. This module says what the full name
is for each such table, and that looking for it ends.

## Main definitions

* `lastEncloser?`, `enclosingRow?` — one step of the chain of enclosing types, and all of them.
* `outermostName`, `nestedName` — what the outermost type is called, and a name with the names of
  nested types behind it.
* `OpenModule.FullNameIs` — the full name of a row, or why there is none.
* `MetadataModule.nameRounds` — the same walk as a loop with no other end than its own.

## Main results

* `enclosingTypes_getElem?` — the last row about a type counts.
* `MetadataModule.nameParts_of_ends`, `MetadataModule.nameParts_of_isDeep`,
  `MetadataModule.nameParts_of_unreadable` — what the chain of a row leads to.
* `MetadataModule.nameRounds_eq` — the loop ends after `nestingLimit + 1` rounds.
* `OpenModule.full_names` — what the full name of a row is.
-/

namespace TypeInventory

/-! ## Chains of enclosing types -/

/-- The row of the type that encloses the one in row `rid`: what the last row about it says. -/
def lastEncloser? (rows : List NestedClassRow) (rid : ℕ) : Option ℕ :=
  (rows.reverse.find? fun row => row.nestedClass == rid).map NestedClassRow.enclosingClass

/-- The row that the chain of enclosing types leads to from row `rid` after `k` steps. -/
def enclosingRow? (rows : List NestedClassRow) (rid k : ℕ) : Option ℕ :=
  (fun inner? => inner?.bind (lastEncloser? rows))^[k] (some rid)

/-- What the outermost type on a chain is called, by its namespace and its name: the name alone if
the namespace is empty, and else the namespace, a point and the name. -/
def outermostName (names : String × String) : String :=
  if names.1 = "" then names.2 else names.1 ++ "." ++ names.2

/-- A name with the names of nested types behind it, each after a plus sign. -/
def nestedName (outermost : String) (inner : List String) : String :=
  inner.foldl (fun enclosing name => enclosing ++ "+" ++ name) outermost

section Chains

variable {rows : List NestedClassRow} {rid outer k : ℕ}

/-- **The last row about a type counts.** -/
lemma enclosingTypes_getElem? (rows : List NestedClassRow) (rid : ℕ) :
    (enclosingTypes rows)[rid]? = lastEncloser? rows rid := by
  induction rows using List.reverseRecOn with
  | nil => rfl
  | append_singleton rows row ih =>
    rw [enclosingTypes, List.foldl_append, ← enclosingTypes, List.foldl_cons, List.foldl_nil,
      Std.TreeMap.getElem?_insert, ih, lastEncloser?, lastEncloser?, List.reverse_append,
      List.reverse_singleton, List.singleton_append, List.find?_cons]
    by_cases h : row.nestedClass = rid
    · simp [h]
    · rw [beq_eq_false_iff_ne.mpr h]
      simp [h]

/-- Behind its first step, the chain is that of the enclosing type. -/
lemma enclosingRow?_succ (h : lastEncloser? rows rid = some outer) (k : ℕ) :
    enclosingRow? rows rid (k + 1) = enclosingRow? rows outer k := by
  rw [enclosingRow?, Function.iterate_succ_apply, Option.bind_some, h]
  rfl

/-- A chain without a first step has no further ones. -/
lemma enclosingRow?_succ_of_eq_none (h : lastEncloser? rows rid = none) (k : ℕ) :
    enclosingRow? rows rid (k + 1) = none := by
  rw [enclosingRow?, Function.iterate_succ_apply, Option.bind_some, h]
  exact Function.iterate_fixed rfl k

/-- The last step of a chain. -/
lemma enclosingRow?_succ' (rows : List NestedClassRow) (rid k : ℕ) :
    enclosingRow? rows rid (k + 1) = (enclosingRow? rows rid k).bind (lastEncloser? rows) :=
  Function.iterate_succ_apply' _ k _

/-- A chain that has ended has no further steps. -/
lemma enclosingRow?_eq_none_of_le {n : ℕ} (h : enclosingRow? rows rid k = none) (hle : k ≤ n) :
    enclosingRow? rows rid n = none := by
  induction n, hle using Nat.le_induction with
  | base => exact h
  | succ n _ ih => rw [enclosingRow?_succ', ih, Option.bind_none]

/-- A chain that comes to a row twice never ends. -/
lemma isSome_enclosingRow?_of_cycle {i j : ℕ} (hlt : i < j)
    (heq : enclosingRow? rows rid i = enclosingRow? rows rid j)
    (hsome : (enclosingRow? rows rid j).isSome) (k : ℕ) : (enclosingRow? rows rid k).isSome := by
  have hperiod : Function.IsPeriodicPt (fun inner? => inner?.bind (lastEncloser? rows)) (j - i)
      (enclosingRow? rows rid i) := by
    have hshift : enclosingRow? rows rid j =
        (fun inner? => inner?.bind (lastEncloser? rows))^[j - i] (enclosingRow? rows rid i) := by
      rw [enclosingRow?, enclosingRow?, ← Function.iterate_add_apply, Nat.sub_add_cancel hlt.le]
    exact hshift.symm.trans heq.symm
  have hrepeat : enclosingRow? rows rid (k * (j - i) + i) = enclosingRow? rows rid i := by
    rw [enclosingRow?, Function.iterate_add_apply]
    exact hperiod.const_mul k
  have hle : k ≤ k * (j - i) + i := by
    have := Nat.le_mul_of_pos_right k (Nat.sub_pos_of_lt hlt)
    omega
  rw [Option.isSome_iff_ne_none]
  intro hnone
  rw [← heq, ← hrepeat, enclosingRow?_eq_none_of_le hnone hle] at hsome
  cases hsome

end Chains

/-- Two types that enclose each other. The first row about the second type does not count. -/
example : enclosingRow? [⟨1, 2, 3⟩, ⟨2, 1, 2⟩, ⟨3, 2, 1⟩] 1 60 = some 1 := by decide

/-- The walk calls the outermost type what it is called. -/
lemma qualifiedName_eq_outermostName (names : String × String) :
    qualifiedName names.1 names.2 = outermostName names :=
  qualifiedName_eq_ite names.1 names.2

/-- Names with plus signs between them. -/
lemma intercalate_plus (outermost : String) (inner : List String) :
    "+".intercalate (outermost :: inner) = nestedName outermost inner := by
  induction inner using List.reverseRecOn with
  | nil => exact String.intercalate_singleton
  | append_singleton inner name ih =>
    have hback : nestedName outermost (inner ++ [name]) =
        nestedName outermost inner ++ "+" ++ name :=
      List.foldl_append
    rw [hback, ← ih, ← List.cons_append,
      String.intercalate_append_of_ne_nil (List.cons_ne_nil _ _) (List.cons_ne_nil _ _),
      String.intercalate_singleton]

/-! ## The parts of a full name -/

namespace MetadataModule

/-- Namespace and name of the row that the chain of enclosing types leads to after `k` steps, if it
leads there. -/
def namesAbove? (m : MetadataModule) (rows : List NestedClassRow) (rid k : ℕ) :
    Option (Except Fault (String × String)) :=
  (enclosingRow? rows rid k).map m.typeDefNames

variable {m : MetadataModule} {rows : List NestedClassRow}

section Parts

variable {rid levels : ℕ} {inner : List String}

/-- The names at the start of a chain. -/
lemma namesAbove?_zero (m : MetadataModule) (rows : List NestedClassRow) (rid : ℕ) :
    m.namesAbove? rows rid 0 = some (m.typeDefNames rid) :=
  rfl

/-- The names behind the first step of a chain. -/
lemma namesAbove?_succ {outer : ℕ} (h : lastEncloser? rows rid = some outer) (k : ℕ) :
    m.namesAbove? rows rid (k + 1) = m.namesAbove? rows outer k := by
  rw [namesAbove?, enclosingRow?_succ h, namesAbove?]

/-- A chain without a first step leads to no further names. -/
lemma exists_encloser_of_namesAbove? {k : ℕ} (h : (m.namesAbove? rows rid (k + 1)).isSome) :
    ∃ outer, lastEncloser? rows rid = some outer := by
  rw [namesAbove?, Option.isSome_map] at h
  cases houter : lastEncloser? rows rid with
  | some outer => exact ⟨outer, rfl⟩
  | none =>
    rw [enclosingRow?_succ_of_eq_none houter] at h
    cases h

/-- The parts of a name that cannot be read. -/
lemma nameParts_of_eq_error {e : Fault} (h : m.typeDefNames rid = .error e) :
    m.nameParts levels rid inner = .error e := by
  cases levels <;> rw [nameParts, h] <;> rfl

/-- The parts of the name of a type that is not nested. -/
lemma nameParts_of_not_nested {names : String × String} (h : m.typeDefNames rid = .ok names)
    (houter : m.enclosing[rid]? = none) :
    m.nameParts levels rid inner = .ok (outermostName names :: inner) := by
  rw [← qualifiedName_eq_outermostName]
  cases levels <;> rw [nameParts, h] <;> simp only [houter] <;> rfl

/-- The parts of the name of a nested type, if no further level is left. -/
lemma nameParts_zero_of_nested {names : String × String} {outer : ℕ}
    (h : m.typeDefNames rid = .ok names) (houter : m.enclosing[rid]? = some outer) :
    m.nameParts 0 rid inner = .error .nesting := by
  rw [nameParts, h]
  simp only [houter]
  rfl

/-- The parts of the name of a nested type. -/
lemma nameParts_succ_of_nested {typeNamespace name : String} {outer : ℕ}
    (h : m.typeDefNames rid = .ok (typeNamespace, name)) (houter : m.enclosing[rid]? = some outer) :
    m.nameParts (levels + 1) rid inner = m.nameParts levels outer (name :: inner) := by
  rw [nameParts, h]
  simp only [houter]
  rfl

/-- **A chain that ends** within the levels gives the names on it, outermost first.

**Proof sketch.** By induction on the number of steps. The chain of the enclosing type is one step
shorter and may take one level less, and the name in front of it joins those further inside. -/
lemma nameParts_of_ends (henclosing : ∀ rid, m.enclosing[rid]? = lastEncloser? rows rid) {n : ℕ}
    (name : ℕ → String × String) (hn : n ≤ levels)
    (hnames : ∀ k ≤ n, m.namesAbove? rows rid k = some (.ok (name k)))
    (hend : m.namesAbove? rows rid (n + 1) = none) :
    m.nameParts levels rid inner =
      .ok (outermostName (name n) ::
        ((List.range n).reverse.map (fun k => (name k).2) ++ inner)) := by
  induction n generalizing rid levels inner name with
  | zero =>
    have hfirst := Option.some.inj (hnames 0 (Nat.le_refl 0))
    refine nameParts_of_not_nested hfirst ?_
    rw [henclosing, Option.eq_none_iff_forall_not_mem]
    intro outer houter
    rw [namesAbove?_succ houter, namesAbove?_zero] at hend
    cases hend
  | succ n ih =>
    have hfirst := Option.some.inj (hnames 0 (Nat.zero_le _))
    have hsecond := hnames 1 (Nat.succ_le_succ (Nat.zero_le n))
    obtain ⟨outer, houter⟩ := exists_encloser_of_namesAbove? (Option.isSome_of_eq_some hsecond)
    obtain ⟨levels, rfl⟩ : ∃ less, levels = less + 1 := ⟨levels - 1, by omega⟩
    rw [namesAbove?_succ houter] at hend
    rw [nameParts_succ_of_nested hfirst ((henclosing rid).trans houter),
      ih (fun k => name (k + 1)) (Nat.le_of_succ_le_succ hn)
        (fun k hk => by rw [← namesAbove?_succ houter, hnames (k + 1) (Nat.succ_le_succ hk)]) hend,
      List.range_succ_eq_map, List.reverse_cons, List.map_append, List.append_assoc,
      ← List.map_reverse, List.map_map]
    rfl

/-- **A chain that goes on** behind the levels gives no name.

**Proof sketch.** By induction on the levels. -/
lemma nameParts_of_isDeep (henclosing : ∀ rid, m.enclosing[rid]? = lastEncloser? rows rid)
    (hnames : ∀ k ≤ levels, ∃ names, m.namesAbove? rows rid k = some (.ok names))
    (hdeep : (m.namesAbove? rows rid (levels + 1)).isSome) :
    m.nameParts levels rid inner = .error .nesting := by
  induction levels generalizing rid inner with
  | zero =>
    obtain ⟨names, hfirst⟩ := hnames 0 (Nat.le_refl 0)
    obtain ⟨outer, houter⟩ := exists_encloser_of_namesAbove? hdeep
    exact nameParts_zero_of_nested (Option.some.inj hfirst) ((henclosing rid).trans houter)
  | succ levels ih =>
    obtain ⟨names, hfirst⟩ := hnames 0 (Nat.zero_le _)
    obtain ⟨outer, houter⟩ := exists_encloser_of_namesAbove? hdeep
    rw [nameParts_succ_of_nested (Option.some.inj hfirst) ((henclosing rid).trans houter)]
    rw [namesAbove?_succ houter] at hdeep
    apply ih ?_ hdeep
    intro k hk
    rw [← namesAbove?_succ houter]
    exact hnames (k + 1) (Nat.succ_le_succ hk)

/-- **The first row on a chain that cannot be read** gives its fault, if the levels reach it.

**Proof sketch.** By induction on the number of steps to it. -/
lemma nameParts_of_unreadable (henclosing : ∀ rid, m.enclosing[rid]? = lastEncloser? rows rid)
    {k : ℕ} {e : Fault} (hk : k ≤ levels) (herror : m.namesAbove? rows rid k = some (.error e))
    (hnames : ∀ j < k, ∃ names, m.namesAbove? rows rid j = some (.ok names)) :
    m.nameParts levels rid inner = .error e := by
  induction k generalizing rid levels inner with
  | zero => exact nameParts_of_eq_error (Option.some.inj herror)
  | succ k ih =>
    obtain ⟨names, hfirst⟩ := hnames 0 (Nat.succ_pos k)
    obtain ⟨outer, houter⟩ := exists_encloser_of_namesAbove? (Option.isSome_of_eq_some herror)
    obtain ⟨levels, rfl⟩ : ∃ less, levels = less + 1 := ⟨levels - 1, by omega⟩
    rw [nameParts_succ_of_nested (Option.some.inj hfirst) ((henclosing rid).trans houter)]
    rw [namesAbove?_succ houter] at herror
    apply ih (Nat.le_of_succ_le_succ hk) herror
    intro j hj
    rw [← namesAbove?_succ houter]
    exact hnames (j + 1) (Nat.succ_lt_succ hj)

end Parts

/-- A full name is made of its parts. -/
lemma fullName_eq (m : MetadataModule) (rid : ℕ) :
    m.fullName rid =
      (m.nameParts nestingLimit rid []).map fun names => "+".intercalate names := by
  rw [fullName]
  cases m.nameParts nestingLimit rid [] <;> rfl

/-! ## The walk as a loop -/

/-- The walk along the chain of enclosing types as a loop, of which at most `rounds` rounds are
made; nothing if it has not ended by then. It keeps the names so far, innermost first, and gives up
when there are `nestingLimit` of them and the chain still goes on. -/
def nameRounds (m : MetadataModule) : ℕ → List String → ℕ → Option (Except Fault String)
  | 0, _, _ => none
  | rounds + 1, parts, current =>
    match m.typeDefNames current with
    | .error e => some (.error e)
    | .ok (typeNamespace, name) =>
      match m.enclosing[current]? with
      | some outer =>
        if nestingLimit ≤ parts.length then some (.error .nesting)
        else m.nameRounds rounds (parts ++ [name]) outer
      | none =>
        some (.ok ("+".intercalate (parts ++ [outermostName (typeNamespace, name)]).reverse))

/-- **The loop ends**, with the full name or the fault of the walk.

**Proof sketch.** By induction on the rounds: each of them adds a name, and `nestingLimit` names are
enough to give up. -/
lemma nameRounds_eq (m : MetadataModule) {rounds : ℕ} {parts : List String} (rid : ℕ)
    (hrounds : nestingLimit - parts.length < rounds) :
    m.nameRounds rounds parts rid =
      some ((m.nameParts (nestingLimit - parts.length) rid parts.reverse).map
        fun names => "+".intercalate names) := by
  induction rounds generalizing parts rid with
  | zero => cases hrounds
  | succ rounds ih =>
    rw [nameRounds]
    cases hnames : m.typeDefNames rid with
    | error e =>
      rw [nameParts_of_eq_error hnames]
      rfl
    | ok names =>
      obtain ⟨typeNamespace, name⟩ := names
      simp only
      cases houter : m.enclosing[rid]? with
      | none =>
        rw [nameParts_of_not_nested hnames houter]
        simp only [List.reverse_append, List.reverse_singleton]
        rfl
      | some outer =>
        simp only
        split_ifs with hlimit
        · rw [Nat.sub_eq_zero_of_le hlimit, nameParts_zero_of_nested hnames houter]
          rfl
        · have hlength : (parts ++ [name]).length = parts.length + 1 := by simp
          obtain ⟨levels, hlevels⟩ : ∃ levels, nestingLimit - parts.length = levels + 1 :=
            ⟨nestingLimit - parts.length - 1, by omega⟩
          have hless : nestingLimit - (parts ++ [name]).length = levels := by omega
          rw [ih outer (by omega), hless, hlevels, nameParts_succ_of_nested hnames houter]
          simp only [List.reverse_append, List.reverse_singleton]
          rfl

end MetadataModule

/-! ## Full names -/

namespace OpenModule

/-- The rows that tell which type encloses which. -/
def nestedClasses (m : OpenModule) : List NestedClassRow :=
  (m.tables.table NestedClassRow).rows

/-- Namespace and name of the row that the chain of enclosing types leads to from row `rid` after
`k` steps, if it leads there. -/
def namesAbove? (m : OpenModule) (rid k : ℕ) : Option (Except Fault (String × String)) :=
  m.indexed.namesAbove? m.nestedClasses rid k

/-- The full name of the type in row `rid`, or why it has none. -/
inductive FullNameIs (m : OpenModule) (rid : ℕ) : Except Fault String → Prop where
  /-- The chain ends after at most `nestingLimit` steps, and all rows on it have names. The result
  is what the outermost type is called, and behind it the names of the others. -/
  | named {n : ℕ} (name : ℕ → String × String) (hn : n ≤ nestingLimit)
    (hnames : ∀ k ≤ n, m.namesAbove? rid k = some (.ok (name k)))
    (hend : m.namesAbove? rid (n + 1) = none) :
    FullNameIs m rid
      (.ok (nestedName (outermostName (name n)) ((List.range n).reverse.map fun k => (name k).2)))
  /-- The chain has more steps, or comes to a row twice, and its first rows have names. -/
  | tooDeep (hnames : ∀ k ≤ nestingLimit, ∃ names, m.namesAbove? rid k = some (.ok names))
    (hdeep : (m.namesAbove? rid (nestingLimit + 1)).isSome ∨
      ∃ i j, i < j ∧ enclosingRow? m.nestedClasses rid i = enclosingRow? m.nestedClasses rid j ∧
        (enclosingRow? m.nestedClasses rid j).isSome) :
    FullNameIs m rid (.error .nesting)
  /-- A row that the walk comes to cannot be read, and those before it have names. -/
  | unreadable {k : ℕ} {e : Fault} (hk : k ≤ nestingLimit)
    (herror : m.namesAbove? rid k = some (.error e))
    (hnames : ∀ j < k, ∃ names, m.namesAbove? rid j = some (.ok names)) :
    FullNameIs m rid (.error e)

variable {m : OpenModule} {rid : ℕ}

/-- Which type encloses which, as the table says. -/
lemma enclosing_indexed (m : OpenModule) (rid : ℕ) :
    m.indexed.enclosing[rid]? = lastEncloser? m.nestedClasses rid :=
  enclosingTypes_getElem? m.nestedClasses rid

/-- The full name is what it should be. -/
lemma fullName_of_fullNameIs {result : Except Fault String} (h : m.FullNameIs rid result) :
    m.indexed.fullName rid = result := by
  rw [MetadataModule.fullName_eq]
  cases h with
  | named name hn hnames hend =>
    rw [MetadataModule.nameParts_of_ends m.enclosing_indexed name hn hnames hend, List.append_nil]
    exact congrArg Except.ok (intercalate_plus _ _)
  | tooDeep hnames hdeep =>
    have hgoes : (m.namesAbove? rid (nestingLimit + 1)).isSome := by
      rcases hdeep with hdeep | ⟨i, j, hlt, heq, hsome⟩
      · exact hdeep
      · rw [OpenModule.namesAbove?, MetadataModule.namesAbove?, Option.isSome_map]
        exact isSome_enclosingRow?_of_cycle hlt heq hsome _
    rw [MetadataModule.nameParts_of_isDeep m.enclosing_indexed hnames hgoes]
    rfl
  | unreadable hk herror hnames =>
    rw [MetadataModule.nameParts_of_unreadable m.enclosing_indexed hk herror hnames]
    rfl

/-- Where a chain has ended, it leads to no further names. -/
lemma namesAbove?_eq_none_of_le {k n : ℕ} (h : m.namesAbove? rid k = none) (hle : k ≤ n) :
    m.namesAbove? rid n = none := by
  rw [OpenModule.namesAbove?, MetadataModule.namesAbove?, Option.map_eq_none_iff] at h ⊢
  exact enclosingRow?_eq_none_of_le h hle

/-- A row that a chain leads to has names, unless it cannot be read. -/
lemma exists_names_of_isSome {k : ℕ} (h : (m.namesAbove? rid k).isSome)
    (herror : ¬∃ e, m.namesAbove? rid k = some (.error e)) :
    ∃ names, m.namesAbove? rid k = some (.ok names) := by
  obtain ⟨result, hresult⟩ := Option.isSome_iff_exists.mp h
  cases result with
  | ok names => exact ⟨names, hresult⟩
  | error e => exact absurd ⟨e, hresult⟩ herror

/-- The names on a chain that ends give the full name of the type at its start. -/
lemma fullNameIs_of_chain {names : List (String × String)} {n : ℕ} (hlength : names.length = n + 1)
    (hn : n ≤ nestingLimit) (h : ∀ k ≤ names.length, m.namesAbove? rid k = names[k]?.map .ok) :
    m.FullNameIs rid (.ok (nestedName (outermostName (names.getD n default))
      ((List.range n).reverse.map fun k => (names.getD k default).2))) := by
  refine .named (names.getD · default) hn (fun k hk => ?_) ?_
  · have hk : k < names.length := by omega
    rw [h k hk.le, List.getD_eq_getElem _ _ hk, List.getElem?_eq_getElem hk, Option.map_some]
  · rw [h (n + 1) hlength.ge, List.getElem?_eq_none hlength.le, Option.map_none]

variable (m rid) in
/-- **One of the three cases holds**: a row that the walk comes to cannot be read, or the chain goes
on behind the limit, or it ends before. -/
lemma exists_fullNameIs : ∃ result, m.FullNameIs rid result := by
  classical
  have hbefore : ∀ {k n : ℕ}, (m.namesAbove? rid n).isSome → k ≤ n →
      (m.namesAbove? rid k).isSome := by
    intro k n hn hle
    rw [Option.isSome_iff_ne_none] at hn ⊢
    exact fun hnone => hn (namesAbove?_eq_none_of_le hnone hle)
  by_cases herror : ∃ k ≤ nestingLimit, ∃ e, m.namesAbove? rid k = some (.error e)
  · -- The first row that cannot be read.
    obtain ⟨e, hfirst⟩ := (Nat.find_spec herror).2
    refine ⟨_, .unreadable (Nat.find_spec herror).1 hfirst fun j hj => ?_⟩
    apply exists_names_of_isSome (hbefore (Option.isSome_of_eq_some hfirst) hj.le)
    exact fun h => Nat.find_min herror hj ⟨hj.le.trans (Nat.find_spec herror).1, h⟩
  · push Not at herror
    have hnames : ∀ k ≤ nestingLimit, (m.namesAbove? rid k).isSome →
        ∃ names, m.namesAbove? rid k = some (.ok names) :=
      fun k hk hsome => exists_names_of_isSome hsome fun ⟨e, he⟩ => herror k hk e he
    by_cases hdeep : (m.namesAbove? rid (nestingLimit + 1)).isSome
    · exact ⟨_, .tooDeep (fun k hk => hnames k hk (hbefore hdeep (Nat.le_succ_of_le hk)))
        (.inl hdeep)⟩
    · -- The first step that the chain does not have.
      have hends : ∃ k, m.namesAbove? rid (k + 1) = none :=
        ⟨nestingLimit, Option.not_isSome_iff_eq_none.mp hdeep⟩
      have hlimit : Nat.find hends ≤ nestingLimit :=
        Nat.find_min' hends (Option.not_isSome_iff_eq_none.mp hdeep)
      have hlast : (m.namesAbove? rid (Nat.find hends)).isSome := by
        cases hn : Nat.find hends with
        | zero => rfl
        | succ n =>
          rw [Option.isSome_iff_ne_none]
          exact Nat.find_min hends (hn ▸ Nat.lt_succ_self n)
      have hall : ∀ k, ∃ names, k ≤ Nat.find hends →
          m.namesAbove? rid k = some (.ok names) := by
        intro k
        by_cases hk : k ≤ Nat.find hends
        · obtain ⟨names, h⟩ := hnames k (hk.trans hlimit) (hbefore hlast hk)
          exact ⟨names, fun _ => h⟩
        · exact ⟨default, fun h => absurd h hk⟩
      choose name hname using hall
      exact ⟨_, .named name hlimit hname (Nat.find_spec hends)⟩

/-- **What the full name of a type is**, whatever the tables of a module tell about nesting. Of
several rows about one type the last one counts. If the chain of enclosing types ends after at most
`nestingLimit` steps, and all rows on it can be read, it is the name of the outermost type, behind
its namespace and a point unless that is empty, with the names of the others behind it, each after a
plus sign, up to the type itself. If the chain goes on, in a circle or not, there is none because of
the limit, and if a row comes first that cannot be read, there is none because of this row. There
are no other cases, and the walk along the chain ends, in a loop of at most `nestingLimit + 1`
rounds.

**Proof sketch.** By induction on the chain in each of the three cases. Two of them cannot hold at
once, because each determines the name. -/
theorem full_names (m : OpenModule) (rid : ℕ) :
    (∀ result, m.indexed.fullName rid = result ↔ m.FullNameIs rid result) ∧
    ∀ more, m.indexed.nameRounds (nestingLimit + 1 + more) [] rid =
      some (m.indexed.fullName rid) := by
  refine ⟨fun result => ⟨?_, fullName_of_fullNameIs⟩, fun more => ?_⟩
  · rintro rfl
    obtain ⟨result, hresult⟩ := exists_fullNameIs m rid
    rwa [fullName_of_fullNameIs hresult]
  · rw [MetadataModule.nameRounds_eq m.indexed rid
      (show nestingLimit - 0 < nestingLimit + 1 + more by omega), MetadataModule.fullName_eq]
    rfl

/-- Metadata with six types: `Game.Player`, an `Item` within it, `Point`, a `Slot` within the
`Item`, a type within itself, and one within a row that is not there. The namespace of the `Item` is
not empty, and the first row about it does not count. -/
def nestedTypesMetadata : ByteArray :=
  let front : List UInt8 :=
    [0x42, 0x53, 0x4A, 0x42, 0x01, 0x00, 0x01, 0x00, 0x00, 0x00, 0x00, 0x00, 0x04, 0x00, 0x00, 0x00,
     0x76, 0x34, 0x00, 0x00, 0x00, 0x00, 0x03, 0x00, 0x48, 0x00, 0x00, 0x00, 0x88, 0x00, 0x00, 0x00,
     0x23, 0x7E, 0x00, 0x00, 0xD0, 0x00, 0x00, 0x00, 0x1D, 0x00, 0x00, 0x00, 0x23, 0x53, 0x74, 0x72,
     0x69, 0x6E, 0x67, 0x73, 0x00, 0x00, 0x00, 0x00, 0xED, 0x00, 0x00, 0x00, 0x01, 0x00, 0x00, 0x00,
     0x23, 0x42, 0x6C, 0x6F, 0x62, 0x00, 0x00, 0x00, 0x00, 0x00, 0x00, 0x00, 0x02, 0x00, 0x00, 0x01,
     0x04, 0x00, 0x00, 0x00, 0x00, 0x02, 0x00, 0x00, 0x00, 0x00, 0x00, 0x00, 0x00, 0x00, 0x00, 0x00,
     0x06, 0x00, 0x00, 0x00, 0x05, 0x00, 0x00, 0x00]
  let types : List UInt8 :=
    [(6, 1), (13, 1), (18, 0), (24, 0), (24, 0), (13, 0)].flatMap fun (name, typeNamespace) =>
      [0, 0, 0, 0, name, 0, typeNamespace, 0, 0, 0, 1, 0, 1, 0]
  let pairs : List UInt8 :=
    [(2, 3), (2, 1), (4, 2), (5, 5), (6, 9)].flatMap fun (inner, outer) => [inner, 0, outer, 0]
  let strings : List UInt8 :=
    [0x00, 0x47, 0x61, 0x6D, 0x65, 0x00, 0x50, 0x6C, 0x61, 0x79, 0x65, 0x72, 0x00, 0x49, 0x74, 0x65,
     0x6D, 0x00, 0x50, 0x6F, 0x69, 0x6E, 0x74, 0x00, 0x53, 0x6C, 0x6F, 0x74, 0x00]
  ⟨(front ++ types ++ pairs ++ strings ++ [0x00]).toArray⟩

/-- The names on the chains from its types that end, innermost first. -/
def nestedTypesChains : List (ℕ × List (String × String)) :=
  [(1, [("Game", "Player")]), (2, [("Game", "Item"), ("Game", "Player")]), (3, [("", "Point")]),
    (4, [("", "Slot"), ("Game", "Item"), ("Game", "Player")])]

/-- The law for this module: types with a namespace and without one, and types within them. The type
within itself and the one within a row that is not there have no full name. -/
theorem full_names_nestedTypesMetadata :
    ∃ m, ofMetadata nestedTypesMetadata = .ok m ∧
      m.indexed.fullName 1 = .ok "Game.Player" ∧
      m.indexed.fullName 2 = .ok "Game.Player+Item" ∧
      m.indexed.fullName 3 = .ok "Point" ∧
      m.indexed.fullName 4 = .ok "Game.Player+Item+Slot" ∧
      m.indexed.fullName 5 = .error .nesting ∧
      m.indexed.fullName 6 = .error (.malformed (.missingTypeDef 9)) ∧
      m.indexed.nameRounds 51 [] 4 = some (.ok "Game.Player+Item+Slot") := by
  obtain ⟨m, hopen, htest⟩ : ∃ m, ofMetadata nestedTypesMetadata = .ok m ∧
      decide ((∀ chain ∈ nestedTypesChains, ∀ k ≤ chain.2.length,
          m.namesAbove? chain.1 k = chain.2[k]?.map .ok) ∧
        (∀ k ≤ nestingLimit, m.namesAbove? 5 k = some (.ok ("", "Slot"))) ∧
        enclosingRow? m.nestedClasses 5 1 = some 5 ∧
        m.namesAbove? 6 0 = some (.ok ("", "Item")) ∧
        m.namesAbove? 6 1 = some (.error (.malformed (.missingTypeDef 9)))) = true :=
    exists_ok_of_any (by decide +kernel)
  obtain ⟨hchains, hcircle, hloop, hinner, houter⟩ := of_decide_eq_true htest
  simp only [nestedTypesChains, List.forall_mem_cons] at hchains
  obtain ⟨hplayer, hitem, hpoint, hslot, -⟩ := hchains
  have hname : ∀ {rid result}, m.FullNameIs rid result → m.indexed.fullName rid = result :=
    fun {rid result} => ((full_names m rid).1 result).mpr
  have hslotName : m.indexed.fullName 4 = .ok "Game.Player+Item+Slot" :=
    (hname (fullNameIs_of_chain rfl (by decide) hslot)).trans (by decide +kernel)
  refine ⟨m, hopen, ?_, ?_, ?_, hslotName, ?_, ?_, ?_⟩
  · exact (hname (fullNameIs_of_chain rfl (by decide) hplayer)).trans (by decide +kernel)
  · exact (hname (fullNameIs_of_chain rfl (by decide) hitem)).trans (by decide +kernel)
  · exact (hname (fullNameIs_of_chain rfl (by decide) hpoint)).trans (by decide +kernel)
  · refine hname (.tooDeep (fun k hk => ⟨_, hcircle k hk⟩) (.inr ⟨0, 1, by decide, ?_, ?_⟩))
    · exact hloop.symm
    · exact Option.isSome_of_eq_some hloop
  · refine hname (.unreadable (by decide) houter fun k hk => ?_)
    obtain rfl : k = 0 := by omega
    exact ⟨_, hinner⟩
  · rw [← hslotName]
    exact (full_names m 4).2 0

end OpenModule

end TypeInventory
