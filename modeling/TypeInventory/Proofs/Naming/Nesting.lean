import TypeInventory.Descriptor.Text
import TypeInventory.Proofs.Module.References
import TypeInventory.Proofs.Naming.FullNames
import TypeInventory.Proofs.Naming.Recursion
import TypeInventory.Proofs.Written.Enclosing

set_option relaxedAutoImplicit false
set_option autoImplicit false

/-!
# References to nested types

A nested type is shown in two ways. Its full name has the names of the enclosing types in front of
its own, each before a plus sign; a reference to it has them as well, each before a point. The full
name goes from row to row. A reference goes from token to token, and a token keeps 24 bits of the
number of a row. So the two ways agree as long as no row has a number with more bits, and they may
part where one has.

They do not end alike either: the full name may go up `nestingLimit` times, but a reference takes a
level for itself and one for each type.

## Main definitions

* `innerNames` — the names of the types within the outermost one of a chain.
* `nestedReference` — the type that shows the names on a chain.
* `OpenModule.IsPlainChain` — chains of types whose references are not cut short.
* `referencesTo` — the signatures of a reference to a type.

## Main results

* `text_nestedReference` — the names on a chain with points between them.
* `MetadataModule.tokenNameWithin_of_isPlainChain` — enough levels lead to the outermost type.
* `MetadataModule.tokenNameWithin_eq_nesting` — too few levels do not.
* `OpenModule.fullName_of_isPlainChain` — the full name has the same names in the same order.
* `OpenModule.references_follow_nesting` — both ways to show a nested type.
* `OpenModule.reference_to_crowded_type` — types of which there are too many.
-/

namespace TypeInventory

/-! ## Names on a chain -/

/-- The names of the types within the outermost one, on a chain that goes up `n` times from the
innermost type. -/
def innerNames (name : ℕ → String × String) (n : ℕ) : List String :=
  (List.range n).reverse.map fun k => (name k).2

/-- The name of the innermost type is the last one. -/
lemma innerNames_succ (name : ℕ → String × String) (n : ℕ) :
    innerNames name (n + 1) = innerNames (fun k => name (k + 1)) n ++ [(name 0).2] := by
  rw [innerNames, List.range_succ_eq_map, List.reverse_cons, List.map_append, ← List.map_reverse,
    List.map_map]
  rfl

/-- The type that shows the names on a chain that goes up `n` times. -/
def nestedReference (name : ℕ → String × String) : ℕ → TypeName
  | 0 => .plain (name 0).2
  | n + 1 => .nested (nestedReference (fun k => name (k + 1)) n) (name 0).2

/-- **The names on a chain with points between them**, that of the outermost type first.

**Proof sketch.** By induction on the chain: the innermost name stands at the end. -/
lemma text_nestedReference (name : ℕ → String × String) (n : ℕ) :
    (nestedReference name n).text = ".".intercalate ((name n).2 :: innerNames name n) := by
  induction n generalizing name with
  | zero => exact String.intercalate_singleton.symm
  | succ n ih =>
    rw [nestedReference, TypeName.text, ih, innerNames_succ, ← List.cons_append,
      String.intercalate_append_of_ne_nil (List.cons_ne_nil _ _) (List.cons_ne_nil _ _),
      String.intercalate_singleton]

/-! ## Owners of generic parameters -/

/-- A row whose name can be read is one of the rows. -/
lemma mem_of_mem_namedGenerics {strings : StringHeap} {rows : List GenericParamRow}
    {p : GenericParamRow × String} (h : p ∈ (namedGenerics strings rows).2) : p.1 ∈ rows := by
  induction rows with
  | nil => cases h
  | cons row rows ih =>
    cases hname : strings.get row.name with
    | error e =>
      rw [OpenModule.namedGenerics_cons_of_error hname] at h
      exact List.mem_cons_of_mem row (ih h)
    | ok name =>
      rw [OpenModule.namedGenerics_cons_of_ok hname] at h
      rcases List.mem_cons.mp h with rfl | h
      · exact List.mem_cons_self
      · exact List.mem_cons_of_mem row (ih h)

/-- No names are gathered for what owns no parameter. -/
lemma genericNames_getElem?_eq_none {owners : TableId} {owner : ℕ}
    {named : List (GenericParamRow × String)}
    (h : ∀ p ∈ named, p.1.owner.table = owners → p.1.owner.token.row ≠ owner) :
    (genericNames owners named)[owner]? = none := by
  rw [genericNames, Std.TreeMap.getElem?_map, Option.map_eq_none_iff]
  refine List.foldlRecOn (motive := fun names => names[owner]? = none) named _
    Std.TreeMap.getElem?_emptyc fun known hknown p hp => ?_
  show (if p.1.owner.table = owners then _ else known)[owner]? = none
  split_ifs with htable
  · rw [Std.TreeMap.getElem?_insert, if_neg (by simpa using h p hp htable), hknown]
  · exact hknown

/-! ## Plain chains -/

/-- The rows `row 0`, …, `row n` are those of a type, the type around it, and so on up to a type
that is not nested; `name` gives their namespaces and names. The rows can be read, and no reference
is cut short on the way: no type has a keyword or generic parameters, and no nested type is public.
Row numbers are seen through `seen`, which tells what of a number counts. -/
structure OpenModule.IsPlainChain (m : OpenModule) (seen : ℕ → ℕ) (n : ℕ) (row : ℕ → ℕ)
    (name : ℕ → String × String) : Prop where
  /-- Each type but the last one is enclosed by the next one. -/
  next : ∀ k < n, ∃ outer, lastEncloser? m.nestedClasses (row k) = some outer ∧
    row (k + 1) = seen outer
  /-- The last type is not nested. -/
  ends : lastEncloser? m.nestedClasses (row n) = none
  /-- The types have these namespaces and names. -/
  names : ∀ k ≤ n, m.indexed.typeDefNames (row k) = .ok (name k)
  /-- None of them is shown by a keyword. -/
  noKeyword : ∀ k ≤ n, hasKeyword (name k).1 (name k).2 = false
  /-- The nested ones are not public. -/
  hidden : ∀ k < n, ∀ type, m.indexed.typeDefs.get? (row k) = some type →
    type.flags % visibilityBits ≠ nestedPublic
  /-- None of them owns a generic parameter. -/
  noParameters : ∀ k ≤ n, ∀ param ∈ m.genericParams.rows, param.owner.table = .typeDef →
    seen param.owner.row ≠ row k

namespace OpenModule.IsPlainChain

variable {m : OpenModule} {seen : ℕ → ℕ} {n : ℕ} {row : ℕ → ℕ} {name : ℕ → String × String}

/-- The chain from the enclosing type on. -/
lemma tail (h : m.IsPlainChain seen (n + 1) row name) :
    m.IsPlainChain seen n (fun k => row (k + 1)) (fun k => name (k + 1)) where
  next k hk := h.next (k + 1) (Nat.succ_lt_succ hk)
  ends := h.ends
  names k hk := h.names (k + 1) (Nat.succ_le_succ hk)
  noKeyword k hk := h.noKeyword (k + 1) (Nat.succ_le_succ hk)
  hidden k hk := h.hidden (k + 1) (Nat.succ_lt_succ hk)
  noParameters k hk := h.noParameters (k + 1) (Nat.succ_le_succ hk)

/-- A chain of rows whose numbers have 24 bits is seen by tokens as it is, if so is who owns generic
parameters. -/
lemma of_lt (h : m.IsPlainChain id n row name) (hrows : ∀ k ≤ n, row k < 2 ^ 24)
    (howners : ∀ param ∈ m.genericParams.rows, param.owner.table = .typeDef →
      param.owner.row < 2 ^ 24) :
    m.IsPlainChain (· % 2 ^ 24) n row name where
  next k hk := by
    obtain ⟨outer, houter, hrow⟩ := h.next k hk
    refine ⟨outer, houter, ?_⟩
    have hlt := hrows (k + 1) hk
    rw [hrow] at hlt ⊢
    exact (Nat.mod_eq_of_lt hlt).symm
  ends := h.ends
  names := h.names
  noKeyword := h.noKeyword
  hidden := h.hidden
  noParameters k hk param hparam htable := by
    rw [Nat.mod_eq_of_lt (howners param hparam htable)]
    exact h.noParameters k hk param hparam htable

/-- The chain of enclosing types leads to its rows. -/
lemma enclosingRow?_eq (h : m.IsPlainChain id n row name) {k : ℕ} (hk : k ≤ n) :
    enclosingRow? m.nestedClasses (row 0) k = some (row k) := by
  induction k with
  | zero => rfl
  | succ k ih =>
    obtain ⟨outer, houter, hrow⟩ := h.next k hk
    rw [enclosingRow?_succ', ih (Nat.le_of_succ_le hk), Option.bind_some, houter, hrow]
    rfl

end OpenModule.IsPlainChain

/-! ## Levels -/

namespace MetadataModule

/-- Namespace and name of a row that can be read are those that its columns lead to. -/
lemma exists_row_of_typeDefNames {m : MetadataModule} {rid : ℕ} {typeNamespace name : String}
    (h : m.typeDefNames rid = .ok (typeNamespace, name)) :
    ∃ row, m.typeDefs.get? rid = some row ∧
      m.strings.get row.typeNamespace = .ok typeNamespace ∧
      m.strings.get row.typeName = .ok name := by
  rw [ModuleTables.typeDefNames] at h
  cases hrow : m.typeDefs.get? rid with
  | none =>
    rw [hrow] at h
    cases h
  | some row =>
    rw [hrow] at h
    cases hnamespace : m.strings.get row.typeNamespace with
    | error e =>
      simp only [hnamespace] at h
      cases h
    | ok typeNamespace' =>
      cases hname : m.strings.get row.typeName with
      | error e =>
        simp only [hnamespace, hname] at h
        cases h
      | ok name' =>
        simp only [hnamespace, hname] at h
        cases h
        exact ⟨row, rfl, hnamespace, hname⟩

variable {m : OpenModule} {n rid : ℕ} {row : ℕ → ℕ} {name : ℕ → String × String}
  (scope : GenericScope)

/-- The type at the start of a chain has no generic parameters. -/
lemma typeGenerics_of_isPlainChain (h : m.IsPlainChain (· % 2 ^ 24) n row name) :
    m.indexed.typeGenerics[row 0]? = none := by
  refine genericNames_getElem?_eq_none fun p hp htable => ?_
  have howner := h.noParameters 0 (Nat.zero_le n) p.1 (mem_of_mem_namedGenerics hp) htable
  rwa [CodedIndex.token, TableId.row_token]

/-- A look at a type that is not nested. -/
lemma lookAtToken_of_isPlainChain_zero (h : m.IsPlainChain (· % 2 ^ 24) 0 row name)
    (hrow : (TableId.typeDef.token rid).row = row 0) :
    m.indexed.lookAtToken (TableId.typeDef.token rid) = .ok (.done (.plain (name 0).2)) := by
  obtain ⟨type, htype, hnamespace, hname⟩ := exists_row_of_typeDefNames (h.names 0 (Nat.le_refl 0))
  have henclosing : m.indexed.enclosing[row 0]? = none := (m.enclosing_indexed _).trans h.ends
  rw [lookAtToken, if_pos (TableId.table_token _ _), hrow, htype]
  simp only [hnamespace, hname, typeGenerics_of_isPlainChain h, henclosing]
  change (if hasKeyword (name 0).1 (name 0).2 = true then _ else _) = _
  rw [h.noKeyword 0 (Nat.le_refl 0), if_neg Bool.false_ne_true]
  rfl

/-- A look at a nested type leads to the type that encloses it, as far as tokens see it. -/
lemma exists_lookAtToken_of_isPlainChain_succ (h : m.IsPlainChain (· % 2 ^ 24) (n + 1) row name)
    (hrow : (TableId.typeDef.token rid).row = row 0) :
    ∃ outer, (TableId.typeDef.token outer).row = row 1 ∧
      m.indexed.lookAtToken (TableId.typeDef.token rid) =
        .ok (.form (.nested · (name 0).2) (.token (TableId.typeDef.token outer))) := by
  have hzero := Nat.zero_le (n + 1)
  obtain ⟨type, htype, hnamespace, hname⟩ := exists_row_of_typeDefNames (h.names 0 hzero)
  obtain ⟨outer, houter, hnext⟩ := h.next 0 (Nat.succ_pos n)
  refine ⟨outer, (TableId.row_token _ _).trans hnext.symm, ?_⟩
  rw [← hrow] at htype houter
  exact lookAtToken_enclosing (TableId.table_token _ _) htype hnamespace hname (h.noKeyword 0 hzero)
    (hrow ▸ typeGenerics_of_isPlainChain h) ((m.enclosing_indexed _).trans houter)
    (h.hidden 0 (Nat.succ_pos n) type (hrow ▸ htype))

/-- **Enough levels lead to the outermost type.** A chain that goes up `n` times takes `n + 1`
levels, and its reference shows the names on it.

**Proof sketch.** By induction on the chain, one step of which takes one level. -/
lemma tokenNameWithin_of_isPlainChain (h : m.IsPlainChain (· % 2 ^ 24) n row name)
    (hrow : (TableId.typeDef.token rid).row = row 0) {levels : ℕ} (hlevels : n < levels) :
    m.indexed.tokenNameWithin scope levels (TableId.typeDef.token rid) =
      .ok (nestedReference name n) := by
  induction n generalizing rid row name levels with
  | zero =>
    obtain ⟨levels, rfl⟩ : ∃ less, levels = less + 1 := ⟨levels - 1, by omega⟩
    rw [tokenNameWithin_succ, lookAtToken_of_isPlainChain_zero h hrow]
    rfl
  | succ n ih =>
    obtain ⟨levels, rfl⟩ : ∃ less, levels = less + 1 := ⟨levels - 1, by omega⟩
    obtain ⟨outer, houter, hlook⟩ := exists_lookAtToken_of_isPlainChain_succ h hrow
    rw [tokenNameWithin_succ, hlook]
    show (m.indexed.tokenNameWithin scope levels (TableId.typeDef.token outer) >>= _) = _
    rw [ih h.tail houter (Nat.lt_of_succ_lt_succ hlevels)]
    rfl

/-- **Too few levels do not**: the reference is refused.

**Proof sketch.** By induction on the levels. -/
lemma tokenNameWithin_eq_nesting (h : m.IsPlainChain (· % 2 ^ 24) n row name)
    (hrow : (TableId.typeDef.token rid).row = row 0) {levels : ℕ} (hlevels : levels ≤ n) :
    m.indexed.tokenNameWithin scope levels (TableId.typeDef.token rid) = .error .nesting := by
  induction levels generalizing rid row name n with
  | zero => rfl
  | succ levels ih =>
    obtain ⟨n, rfl⟩ : ∃ less, n = less + 1 := ⟨n - 1, by omega⟩
    obtain ⟨outer, houter, hlook⟩ := exists_lookAtToken_of_isPlainChain_succ h hrow
    rw [tokenNameWithin_succ, hlook]
    show (m.indexed.tokenNameWithin scope levels (TableId.typeDef.token outer) >>= _) = _
    rw [ih h.tail houter (by omega)]
    rfl

end MetadataModule

/-! ## Both ways to show a nested type -/

/-- The signatures of a reference to a type: that of a reference type and that of a value type. -/
def referencesTo (rid : ℕ) : List TypeSig :=
  [.classType (TableId.typeDef.token rid), .valueType (TableId.typeDef.token rid)]

namespace OpenModule

variable {m : OpenModule} {n : ℕ} {row : ℕ → ℕ} {name : ℕ → String × String}

/-- **The full name has the names on the chain**, that of the outermost type with its namespace. -/
lemma fullName_of_isPlainChain (h : m.IsPlainChain id n row name) (hn : n ≤ nestingLimit) :
    m.indexed.fullName (row 0) =
      .ok ("+".intercalate (outermostName (name n) :: innerNames name n)) := by
  rw [intercalate_plus]
  refine fullName_of_fullNameIs (.named name hn (fun k hk => ?_) ?_)
  · rw [namesAbove?, MetadataModule.namesAbove?, h.enclosingRow?_eq hk, Option.map_some,
      h.names k hk]
  · rw [namesAbove?, MetadataModule.namesAbove?, enclosingRow?_succ',
      h.enclosingRow?_eq (Nat.le_refl n), Option.bind_some, h.ends, Option.map_none]

/-- A reference to the type at the start of a chain, as tokens see it. It is named with a level less
than there are, because the signature takes one. -/
lemma signatureName_of_isPlainChain (h : m.IsPlainChain (· % 2 ^ 24) n row name) {rid : ℕ}
    (hrow : row 0 = rid % 2 ^ 24) (scope : GenericScope) {sig : TypeSig}
    (hsig : sig ∈ referencesTo rid) :
    (n ≤ 48 → ∃ type, m.indexed.signatureName scope sig = .ok type ∧
      type.text = ".".intercalate ((name n).2 :: innerNames name n)) ∧
    (49 ≤ n → m.indexed.signatureName scope sig = .error .nesting) := by
  have htoken : (TableId.typeDef.token rid).row = row 0 := by rw [TableId.row_token, hrow]
  have hname : m.indexed.signatureName scope sig =
      m.indexed.tokenNameWithin scope 49 (TableId.typeDef.token rid) := by
    simp only [referencesTo, List.mem_cons, List.not_mem_nil, or_false] at hsig
    rcases hsig with rfl | rfl <;> rfl
  rw [hname]
  exact ⟨fun hn => ⟨_, MetadataModule.tokenNameWithin_of_isPlainChain scope h htoken (by omega),
    text_nestedReference name n⟩,
    fun hn => MetadataModule.tokenNameWithin_eq_nesting scope h htoken hn⟩

/-- **References and full names traverse nesting alike, as far as tokens reach.** Let the types on a
chain of enclosing types be readable, neither public where they are nested nor shown by a keyword,
and without generic parameters. If the numbers of all rows on it have 24 bits, and so have those of
the owners of generic parameters, then a reference to the innermost type shows the names on the
chain, outermost first, with points between them. The full name has the same names in the same
order, with plus signs between them and the namespace in front. This holds for chains that go up at
most 48 times; longer ones are refused in a reference.

The full name never depends on 24 bits. A reference does: whatever the numbers are, it shows the
chain of those rows that are left when each number is cut to 24 bits.

**Proof sketch.** By induction on the chain, one step of which takes one level. The signature takes
one level, and the type itself another one. Numbers of 24 bits are their own remainders, so tokens
see the chain as it is. -/
theorem references_follow_nesting (m : OpenModule) (scope : GenericScope) :
    (∀ (n : ℕ) (row : ℕ → ℕ) (name : ℕ → String × String), m.IsPlainChain id n row name →
      (∀ k ≤ n, row k < 2 ^ 24) →
      (∀ param ∈ m.genericParams.rows, param.owner.table = .typeDef →
        param.owner.row < 2 ^ 24) →
      ∀ sig ∈ referencesTo (row 0),
        (n ≤ 48 →
          (∃ type, m.indexed.signatureName scope sig = .ok type ∧
            type.text = ".".intercalate ((name n).2 :: innerNames name n)) ∧
          m.indexed.fullName (row 0) =
            .ok ("+".intercalate (outermostName (name n) :: innerNames name n))) ∧
        (49 ≤ n → m.indexed.signatureName scope sig = .error .nesting)) ∧
    (∀ (n : ℕ) (row : ℕ → ℕ) (name : ℕ → String × String), m.IsPlainChain id n row name →
      n ≤ nestingLimit →
        m.indexed.fullName (row 0) =
          .ok ("+".intercalate (outermostName (name n) :: innerNames name n))) ∧
    ∀ (n rid : ℕ) (row : ℕ → ℕ) (name : ℕ → String × String),
      m.IsPlainChain (· % 2 ^ 24) n row name → row 0 = rid % 2 ^ 24 →
      ∀ sig ∈ referencesTo rid,
        (n ≤ 48 → ∃ type, m.indexed.signatureName scope sig = .ok type ∧
          type.text = ".".intercalate ((name n).2 :: innerNames name n)) ∧
        (49 ≤ n → m.indexed.signatureName scope sig = .error .nesting) := by
  refine ⟨fun n row name h hrows howners sig hsig => ?_,
    fun n row name h hn => fullName_of_isPlainChain h hn,
    fun n rid row name h hrow sig hsig => signatureName_of_isPlainChain h hrow scope hsig⟩
  have hfirst := (Nat.mod_eq_of_lt (hrows 0 (Nat.zero_le n))).symm
  obtain ⟨hshown, hrefused⟩ :=
    signatureName_of_isPlainChain (h.of_lt hrows howners) hfirst scope hsig
  exact ⟨fun hn => ⟨hshown hn, fullName_of_isPlainChain h (hn.trans (by decide))⟩, hrefused⟩

/-! ### A tower of types -/

/-- The name of the type in a row of a tower, with its place. -/
def towerLetter (rid : ℕ) : ℕ × String :=
  if rid = 1 then (3, "B") else if rid = 2 then (5, "C") else (1, "A")

/-- A tower of fifty types, each of which is enclosed by the next one. -/
def towerTypes : EnclosingDecl where
  names := (List.range 50).map fun i => (towerLetter (i + 1)).1
  pairs := (List.range 49).map fun i => (i + 1, i + 2)

/-- From each of its types, the tower leads to the last one. -/
lemma isPlainChain_tower (hm : towerTypes.StoredIn m) (rid : ℕ) (hone : 1 ≤ rid)
    (hlast : rid ≤ 50) :
    m.IsPlainChain id (50 - rid) (rid + ·) fun k => ("", (towerLetter (rid + k)).2) := by
  have hpairs : (∀ k < 49, lastEncloser? (towerTypes.pairs.mapIdx EnclosingDecl.pairRow) (k + 1) =
      some (k + 2)) ∧ lastEncloser? (towerTypes.pairs.mapIdx EnclosingDecl.pairRow) 50 = none := by
    decide +kernel
  have hletters : ∀ k < 50, towerTypes.names[k]? = some (towerLetter (k + 1)).1 := by
    decide +kernel
  have hletter : ∀ k, towerLetter k ∈ placedLetters := by
    intro k
    unfold towerLetter
    split_ifs <;> decide
  refine {
    next := fun k hk => ⟨rid + k + 1, ?_, rfl⟩
    ends := ?_
    names := fun k hk => ?_
    noKeyword := fun _ _ => rfl
    hidden := fun k _ type htype => ?_
    noParameters := fun k _ param hparam => ?_ }
  · rw [hm.nestedClasses]
    obtain ⟨i, rfl⟩ := Nat.exists_eq_add_of_le hone
    have hpair := hpairs.1 (i + k) (by omega)
    rw [show i + k + 1 = 1 + i + k by omega, show i + k + 2 = 1 + i + k + 1 by omega] at hpair
    exact hpair
  · rw [hm.nestedClasses, Nat.add_sub_cancel' hlast]
    exact hpairs.2
  · obtain ⟨i, hi⟩ : ∃ i, rid + k = i + 1 := ⟨rid + k - 1, by omega⟩
    rw [hi]
    exact hm.typeDefNames (hletter (i + 1)) (hletters i (by omega))
  · rw [hm.flags_eq_zero htype]
    decide
  · rw [hm.genericParams] at hparam
    cases hparam

/-- Two types of the tower by the general law: the second one is shown with the names of all 48
around it, in a reference and in its full name, but there is no reference to the first one. -/
theorem references_follow_nesting_tower :
    ∃ m, ofMetadata towerTypes.metadata = .ok m ∧
      (∃ type, m.indexed.signatureName {} (.classType (TableId.typeDef.token 2)) = .ok type ∧
        type.text = ".".intercalate (List.replicate 48 "A" ++ ["C"])) ∧
      m.indexed.fullName 2 = .ok ("+".intercalate (List.replicate 48 "A" ++ ["C"])) ∧
      m.indexed.fullName 1 = .ok ("+".intercalate (List.replicate 48 "A" ++ ["C", "B"])) ∧
      m.indexed.signatureName {} (.valueType (TableId.typeDef.token 1)) = .error .nesting := by
  have hfits : towerTypes.Fits := ⟨by decide +kernel, by decide +kernel, by decide +kernel⟩
  obtain ⟨m, hopen, hm⟩ := EnclosingDecl.exists_ofMetadata_eq_ok hfits
  obtain ⟨hagree, hfull, -⟩ := references_follow_nesting m {}
  have hparams : ∀ param ∈ m.genericParams.rows, param.owner.table = .typeDef →
      param.owner.row < 2 ^ 24 := by
    intro param hparam
    rw [hm.genericParams] at hparam
    cases hparam
  have hfirst := isPlainChain_tower hm 1 (by decide) (by decide)
  have hsecond := isPlainChain_tower hm 2 (by decide) (by decide)
  obtain ⟨hshown, -⟩ := hagree _ _ _ hsecond (fun k hk => by omega) hparams
    (.classType (TableId.typeDef.token 2)) List.mem_cons_self
  obtain ⟨-, hrefused⟩ := hagree _ _ _ hfirst (fun k hk => by omega) hparams
    (.valueType (TableId.typeDef.token 1)) (List.mem_cons_of_mem _ List.mem_cons_self)
  have hnames : innerNames (fun k => ("", (towerLetter (2 + k)).2)) 48 =
      List.replicate 47 "A" ++ ["C"] := by decide
  have hallNames : innerNames (fun k => ("", (towerLetter (1 + k)).2)) 49 =
      List.replicate 47 "A" ++ ["C", "B"] := by decide
  obtain ⟨⟨type, hname, htext⟩, hfullName⟩ := hshown (by decide)
  have hfirstFull := hfull _ _ _ hfirst (by decide)
  refine ⟨m, hopen, ⟨type, hname, htext.trans ?_⟩, hfullName.trans ?_, hfirstFull.trans ?_,
    hrefused (by decide)⟩
  · rw [hnames]
    rfl
  · rw [hnames]
    rfl
  · rw [hallNames]
    rfl

/-! ### Numbers with more bits -/

/-- So many types that the last one has a number of 25 bits: `A`, `B`, and all others `C`. The type
in row 2 is enclosed by the last one. -/
def crowdedTypes : EnclosingDecl where
  names := 1 :: 3 :: List.replicate (2 ^ 24 - 1) 5
  pairs := [(2, 2 ^ 24 + 1)]

/-- The places of their names. -/
lemma names_crowdedTypes : crowdedTypes.names = 1 :: 3 :: List.replicate (2 ^ 24 - 1) 5 := by
  rw [crowdedTypes]

/-- There are as many types as numbers with 24 bits, and one more. -/
lemma length_names_crowdedTypes : crowdedTypes.names.length = 2 ^ 24 + 1 := by
  rw [names_crowdedTypes, List.length_cons, List.length_cons, List.length_replicate,
    Nat.sub_add_cancel (by norm_num)]

/-- The last type is called `C`. -/
lemma getElem?_names_crowdedTypes : crowdedTypes.names[2 ^ 24]? = some 5 := by
  rw [names_crowdedTypes, show 2 ^ 24 = 2 ^ 24 - 2 + 1 + 1 by norm_num, List.getElem?_cons_succ,
    List.getElem?_cons_succ, List.getElem?_replicate, if_pos (by norm_num)]

/-- The types can be written. -/
lemma fits_crowdedTypes : crowdedTypes.Fits where
  names := by
    rw [names_crowdedTypes, List.forall_mem_cons, List.forall_mem_cons]
    refine ⟨by norm_num, by norm_num, fun name hname => ?_⟩
    rw [List.eq_of_mem_replicate hname]
    norm_num
  pairs := by
    intro pair hpair
    obtain rfl := List.mem_singleton.mp hpair
    rw [length_names_crowdedTypes]
    norm_num
  size := by
    rw [length_names_crowdedTypes, show crowdedTypes.pairs.length = 1 from rfl]
    norm_num

/-- A chain from the second type to another one, if that one has this number when it is seen. -/
lemma isPlainChain_crowdedTypes (hm : crowdedTypes.StoredIn m) (seen : ℕ → ℕ) {i : ℕ}
    (letter : ℕ × String) (hseen : seen (2 ^ 24 + 1) = i + 1) (hne : i ≠ 1)
    (hletter : letter ∈ placedLetters) (hname : crowdedTypes.names[i]? = some letter.1) :
    m.IsPlainChain seen 1 (fun k => if k = 0 then 2 else i + 1)
      (fun k => if k = 0 then ("", "B") else ("", letter.2)) := by
  have hpairs : m.nestedClasses = [⟨1, 2, 2 ^ 24 + 1⟩] := hm.nestedClasses
  have hempty : ∀ name, hasKeyword "" name = false := fun _ => rfl
  refine {
    next := fun k hk => ?_
    ends := ?_
    names := fun k hk => ?_
    noKeyword := fun k _ => ?_
    hidden := fun k _ type htype => ?_
    noParameters := fun k _ param hparam => ?_ }
  · obtain rfl : k = 0 := by omega
    exact ⟨2 ^ 24 + 1, by rw [hpairs]; rfl, hseen.symm⟩
  · have hother : ((2 : ℕ) == i + 1) = false := by
      rw [beq_eq_false_iff_ne]
      omega
    rw [hpairs, lastEncloser?, List.reverse_singleton, if_neg Nat.one_ne_zero,
      List.find?_cons_of_neg (by simp [hother])]
    rfl
  · split_ifs with hk
    · exact hm.typeDefNames (by decide : (3, "B") ∈ placedLetters) rfl
    · exact hm.typeDefNames hletter hname
  · split_ifs <;> exact hempty _
  · rw [hm.flags_eq_zero htype]
    decide
  · rw [hm.genericParams] at hparam
    cases hparam

/-- **A reference shows another type.** The type `B` is enclosed by `C`, as its full name says. The
last 24 bits of the number of `C` are those of the number of `A`, so the reference says that `B` is
enclosed by `A`. -/
theorem reference_to_crowded_type :
    ∃ m row name, ofMetadata crowdedTypes.metadata = .ok m ∧ m.IsPlainChain id 1 row name ∧
      row 0 = 2 ∧ row 1 = 2 ^ 24 + 1 ∧
      m.indexed.fullName 2 = .ok "C+B" ∧
      ∀ sig ∈ referencesTo 2,
        (∃ type, m.indexed.signatureName {} sig = .ok type ∧ type.text = "A.B") ∧
        ¬∃ type, m.indexed.signatureName {} sig = .ok type ∧
          type.text = ".".intercalate ((name 1).2 :: innerNames name 1) := by
  obtain ⟨m, hopen, hm⟩ := EnclosingDecl.exists_ofMetadata_eq_ok fits_crowdedTypes
  have hchain := isPlainChain_crowdedTypes hm id (5, "C") rfl (by decide) (by decide)
    getElem?_names_crowdedTypes
  have hseen := isPlainChain_crowdedTypes hm (· % 2 ^ 24) (1, "A") (show _ = 0 + 1 from rfl)
    (by decide) (by decide) rfl
  refine ⟨m, _, _, hopen, hchain, rfl, rfl, fullName_of_isPlainChain hchain (by decide),
    fun sig hsig => ?_⟩
  obtain ⟨hshown, -⟩ := signatureName_of_isPlainChain hseen rfl {} hsig
  obtain ⟨type, hname, htext⟩ := hshown (by decide)
  refine ⟨⟨type, hname, htext⟩, ?_⟩
  rintro ⟨type', hname', htext'⟩
  obtain rfl := Except.ok.inj (hname.symm.trans hname')
  exact absurd (htext.symm.trans htext') (by decide)

end OpenModule

end TypeInventory
