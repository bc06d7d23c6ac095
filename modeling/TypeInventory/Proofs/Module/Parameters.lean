import TypeInventory.Proofs.Module.Agreement

set_option relaxedAutoImplicit false
set_option autoImplicit false

/-!
# Parameters and their rows

The signature of a method says how many parameters there are, and of which types. Their names and
flags lie in rows of their own, in any order and with gaps: each row says which position it is
about. This module proves that a parameter is bound to the last row about its position in the run of
its method, and that nothing else in that run counts: not the rows about other positions, and not
the places of the rows.

## Main definitions

* `lastAbout?`, `ModuleTables.paramRowsOf` — the row about a position, in the run of a method.
* `MetadataModule.SameBesidesParams` — modules that may differ in what rows of parameters hold.
* `MetadataModule.ChangesIdleRows`, `MetadataModule.PermutesRows` — how they may differ without any
  effect on a method.

## Main results

* `MetadataModule.getElem?_paramsByPosition` — parameters are looked up as the last row about them.
* `MetadataModule.NamesAlike.resolveMethod_eq` — what the resolution of a method depends on.
* `MetadataModule.parameters_bind_by_sequence` — parameters are bound to rows by their positions.
-/

namespace TypeInventory

/-! ## Rows about a position -/

/-- What the row of a parameter holds, wherever it lies. -/
def ParamRow.contents (row : ParamRow) : ℕ × ℕ × ℕ :=
  (row.flags, row.sequence, row.name)

/-- The last one of some rows that is about a position. -/
def lastAbout? (rows : List ParamRow) (position : ℕ) : Option ParamRow :=
  (rows.filter fun row => row.sequence = position).getLast?

section LastAbout

variable {rows rows' : List ParamRow} {row : ParamRow} {position : ℕ}

/-- The row about a position is one of the rows, and about this position. -/
lemma mem_of_lastAbout? (h : lastAbout? rows position = some row) :
    row ∈ rows ∧ row.sequence = position := by
  have hmem := List.mem_filter.mp (List.mem_of_getLast? h)
  exact ⟨hmem.1, of_decide_eq_true hmem.2⟩

/-- There is a row about a position if one of the rows is about it. -/
lemma exists_lastAbout? (hrow : row ∈ rows) (hposition : row.sequence = position) :
    ∃ last, lastAbout? rows position = some last := by
  have hmem : row ∈ rows.filter fun row => row.sequence = position :=
    List.mem_filter.mpr ⟨hrow, decide_eq_true hposition⟩
  exact ⟨_, List.getLast?_eq_some_getLast (List.ne_nil_of_mem hmem)⟩

/-- A further row counts if it is about the position. -/
lemma lastAbout?_concat :
    lastAbout? (rows ++ [row]) position =
      if row.sequence = position then some row else lastAbout? rows position := by
  unfold lastAbout?
  rw [List.filter_append]
  split_ifs with hposition
  · rw [List.filter_cons, if_pos (decide_eq_true hposition), List.filter_nil, List.getLast?_concat]
  · rw [List.filter_cons, if_neg (by simpa using hposition), List.filter_nil, List.append_nil]

/-- Whether a row is about a position is seen from what it holds. -/
lemma contents_filter (row? : Option ParamRow) :
    (row?.filter (·.sequence = position)).map ParamRow.contents =
      (row?.map ParamRow.contents).filter (·.2.1 = position) := by
  rw [Option.filter_map]
  rfl

/-- In two runs, the rows about a position hold the same if each member of the one run holds the
same about it as that of the other. -/
lemma contents_lastAbout?_filterMap {rids : List ℕ} {get? get?' : ℕ → Option ParamRow}
    (h : ∀ rid ∈ rids, ((get?' rid).filter (·.sequence = position)).map ParamRow.contents =
      ((get? rid).filter (·.sequence = position)).map ParamRow.contents) :
    (lastAbout? (rids.filterMap get?') position).map ParamRow.contents =
      (lastAbout? (rids.filterMap get?) position).map ParamRow.contents := by
  unfold lastAbout?
  rw [← List.getLast?_map, ← List.getLast?_map, List.filter_filterMap, List.filter_filterMap,
    List.map_filterMap, List.map_filterMap, List.filterMap_congr h]

/-- In two runs, the rows about a position hold the same if both runs hold the same, in any order,
and in one of them no two rows are about the same position. -/
lemma contents_lastAbout?_of_distinct
    (hdistinct : ∀ a ∈ rows, ∀ b ∈ rows, a.sequence = b.sequence → a = b)
    (hleft : ∀ a ∈ rows, ∃ a' ∈ rows', a'.contents = a.contents)
    (hright : ∀ a' ∈ rows', ∃ a ∈ rows, a'.contents = a.contents) :
    (lastAbout? rows' position).map ParamRow.contents =
      (lastAbout? rows position).map ParamRow.contents := by
  cases hlast' : lastAbout? rows' position with
  | some last' =>
    obtain ⟨hmem', hposition'⟩ := mem_of_lastAbout? hlast'
    obtain ⟨a, ha, hcontents⟩ := hright last' hmem'
    have hposition : a.sequence = position := by
      rw [← hposition']
      exact (congrArg (fun c : ℕ × ℕ × ℕ => c.2.1) hcontents).symm
    obtain ⟨last, hlast⟩ := exists_lastAbout? ha hposition
    obtain ⟨hmem, hsequence⟩ := mem_of_lastAbout? hlast
    obtain rfl := hdistinct last hmem a ha (hsequence.trans hposition.symm)
    rw [hlast, Option.map_some, Option.map_some, hcontents]
  | none =>
    cases hlast : lastAbout? rows position with
    | none => rfl
    | some last =>
      obtain ⟨hmem, hposition⟩ := mem_of_lastAbout? hlast
      obtain ⟨a', ha', hcontents⟩ := hleft last hmem
      have hposition' : a'.sequence = position := by
        rw [← hposition]
        exact congrArg (fun c : ℕ × ℕ × ℕ => c.2.1) hcontents
      obtain ⟨last', hlast''⟩ := exists_lastAbout? ha' hposition'
      rw [hlast'] at hlast''
      cases hlast''

end LastAbout

/-- Behind the same warnings, the same second steps are the same, whatever they start from. -/
lemma Resolution.withWarnings_bind_congr {α β γ : Type} {ws : List Diagnostic} {a : α} {b : β}
    {f : α → Resolution γ} {g : β → Resolution γ} (h : f a = g b) :
    Resolution.withWarnings ws a >>= f = Resolution.withWarnings ws b >>= g := by
  show Resolution.mk (ws ++ (f a).warnings) (f a).result = ⟨ws ++ (g b).warnings, (g b).result⟩
  rw [h]

/-- The rows in the run of the method in row `rid`. -/
def ModuleTables.paramRowsOf (m : ModuleTables) (rid : ℕ) : List ParamRow :=
  (m.membersOf .param rid).filterMap m.params.get?

namespace MetadataModule

variable {m m' : MetadataModule}

/-- **Parameters are looked up as the last row about them.** -/
lemma getElem?_paramsByPosition (rids : List ℕ) (position : ℕ) :
    (m.paramsByPosition rids)[position]? =
      lastAbout? (rids.filterMap m.params.get?) position := by
  induction rids using List.reverseRecOn with
  | nil => rfl
  | append_singleton rids rid ih =>
    rw [paramsByPosition, List.foldl_append, List.foldl_cons, List.foldl_nil, ← paramsByPosition,
      List.filterMap_append, List.filterMap_cons, List.filterMap_nil]
    cases m.params.get? rid with
    | none => rw [List.append_nil, ih]
    | some row =>
      simp only [Std.TreeMap.getElem?_insert, lastAbout?_concat, Nat.compare_eq_eq, ih]

/-! ## What the resolution of a method depends on -/

/-- How many parameters the signature of a method has; nothing if it cannot be read. -/
def paramCount? (m : MetadataModule) (rid : ℕ) : Option ℕ := do
  let row ← m.methods.get? rid
  let blob ← (m.blobs.get row.signature).toOption
  let sig ← (MethodSig.ofBlob blob).toOption
  return sig.params.length

/-- A method whose signature can be read has as many parameters as the signature. -/
lemma paramCount?_eq_some {rid : ℕ} {row : MethodDefRow} {blob : ByteArray} {sig : MethodSig}
    (hrow : m.methods.get? rid = some row) (hblob : m.blobs.get row.signature = .ok blob)
    (hsig : MethodSig.ofBlob blob = .ok sig) : m.paramCount? rid = some sig.params.length := by
  unfold paramCount?
  rw [hrow]
  simp only [bind, Option.bind, hblob, hsig, Except.toOption, pure]

/-- A parameter is the same if the rows about it hold the same. -/
lemma NamesAlike.resolveParam_eq (h : m.NamesAlike m') {scope : GenericScope}
    {rows rows' : Std.TreeMap ℕ ParamRow} {param : ParamSig} {position : ℕ}
    (hrow : (rows'[position]?).map ParamRow.contents = (rows[position]?).map ParamRow.contents) :
    m'.resolveParam scope rows' param position = m.resolveParam scope rows param position := by
  unfold resolveParam
  rw [h.paramName_eq, h.strings]
  refine bind_congr fun type => ?_
  cases hlast' : rows'[position]? with
  | none =>
    rw [hlast'] at hrow
    rw [Option.map_eq_none_iff.mp hrow.symm]
  | some row' =>
    rw [hlast'] at hrow
    obtain ⟨row, hlast, hcontents⟩ := Option.map_eq_some_iff.mp hrow.symm
    obtain ⟨hflags, -, hname⟩ : row.flags = row'.flags ∧ row.sequence = row'.sequence ∧
        row.name = row'.name := by
      simpa only [ParamRow.contents, Prod.mk.injEq] using hcontents
    rw [hlast]
    simp only [hflags, hname]

/-- The run of a method gives the rows of its parameters. -/
lemma memberRun_param_eq {rid : ℕ} {row : MethodDefRow} (hrow : m.methods.get? rid = some row) :
    m.memberRun .param row.token row.paramList
        ((m.methods.get? (rid + 1)).map MethodDefRow.paramList) =
      .withWarnings
        (if ModuleTables.RunFits (m.memberCount .param) (m.startAt .param rid)
            (m.startAt .param (rid + 1)) then []
          else [runWarning .param row.token (m.startAt .param rid) (m.startAt .param (rid + 1))
            (m.memberCount .param)])
        (m.membersOf .param rid) := by
  have hnumber : MemberList.param.ownerNumber row = rid := ModuleTables.ownerNumber_of_get? hrow
  subst hnumber
  exact @ModuleTables.runOf_eq_withWarnings m.toModuleTables .param _ row hrow

/-- **What the resolution of a method depends on.** In modules that name types alike, a method is
resolved to the same, with the same warnings, if it has the same row, signature and mark, if the
lists of parameters are of the same length and runs start at the same places, and if the rows about
each of its parameters hold the same. -/
lemma NamesAlike.resolveMethod_eq (h : m.NamesAlike m')
    (hmethods : ∀ rid, m'.methods.get? rid = m.methods.get? rid)
    (hcount : m'.memberCount .param = m.memberCount .param) {typeParameters : List String} {rid : ℕ}
    (hgenerics : m'.methodGenerics[rid]? = m.methodGenerics[rid]?)
    (hown : ∀ row, m.methods.get? rid = some row →
      m'.blobs.get row.signature = m.blobs.get row.signature ∧
        m'.isGenerated row.token = m.isGenerated row.token)
    (hparams : ∀ count, m.paramCount? rid = some count → ∀ position, 1 ≤ position →
      position ≤ count →
        (lastAbout? (m'.paramRowsOf rid) position).map ParamRow.contents =
          (lastAbout? (m.paramRowsOf rid) position).map ParamRow.contents) :
    m'.resolveMethod typeParameters rid = m.resolveMethod typeParameters rid := by
  unfold resolveMethod
  rw [hmethods rid, h.strings, hgenerics]
  cases hrow : m.methods.get? rid with
  | none => rfl
  | some row =>
    obtain ⟨hblob, hmark⟩ := hown row hrow
    have hrow' : m'.methods.get? rid = some row := (hmethods rid).trans hrow
    have hstarts : ∀ rid, m'.startAt .param rid = m.startAt .param rid :=
      ModuleTables.startAt_congr hmethods hcount
    refine Resolution.bind_congr fun name _ => ?_
    by_cases hconstructor : constructorNames.contains name
    · rw [if_pos hconstructor, if_pos hconstructor]
    · rw [if_neg hconstructor, if_neg hconstructor, hblob]
      refine Resolution.bind_congr fun blob hblob => ?_
      refine Resolution.bind_congr fun sig hsig => ?_
      have hparameters : (sig.params.zipIdx 1).mapM (fun x => m'.resolveParam
            ⟨typeParameters, (m.methodGenerics[rid]?).getD []⟩
            (m'.paramsByPosition (m'.membersOf .param rid)) x.1 x.2) =
          (sig.params.zipIdx 1).mapM fun x => m.resolveParam
            ⟨typeParameters, (m.methodGenerics[rid]?).getD []⟩
            (m.paramsByPosition (m.membersOf .param rid)) x.1 x.2 := by
        refine mapM_congr fun x hx => h.resolveParam_eq ?_
        obtain ⟨hle, hlt, -⟩ := List.mem_zipIdx hx
        rw [getElem?_paramsByPosition, getElem?_paramsByPosition]
        exact hparams _ (paramCount?_eq_some hrow hblob hsig) x.2 hle (by omega)
      simp only [h.paramName_eq, hmark, memberRun_param_eq hrow, memberRun_param_eq hrow', hcount,
        hstarts]
      refine Resolution.bind_congr fun returnType _ => ?_
      exact Resolution.withWarnings_bind_congr
        (congrArg (fun results => Resolution.ofExcept results >>= _) hparameters)

/-! ## Modules with other rows -/

/-- Two modules hold the same, but for what the rows of parameters hold. -/
structure SameBesidesParams (m m' : MetadataModule) : Prop extends m.SameTypesAndMethods m' where
  /-- They have equally many rows of parameters. -/
  paramCount : m'.params.rowCount = m.params.rowCount
  /-- Parameters have the same order. -/
  paramPtrs : m.paramPtrs.SameRows m'.paramPtrs

/-- A row is about none of the first `count` positions, or there is no row at all. -/
def IsIdle (count : ℕ) (row? : Option ParamRow) : Prop :=
  ∀ row ∈ row?, row.sequence = 0 ∨ count < row.sequence

instance (count : ℕ) (row? : Option ParamRow) : Decidable (IsIdle count row?) :=
  inferInstanceAs (Decidable (∀ row ∈ row?, _))

/-- In the run of a method, only rows that are about none of its parameters differ between two
modules; they may hold anything, in both. -/
def ChangesIdleRows (m m' : MetadataModule) (rid : ℕ) : Prop :=
  ∀ count ∈ m.paramCount? rid, ∀ j ∈ m.membersOf .param rid,
    (m'.params.get? j).map ParamRow.contents = (m.params.get? j).map ParamRow.contents ∨
      (IsIdle count (m.params.get? j) ∧ IsIdle count (m'.params.get? j))

/-- In the run of a method, no two rows are about the same position, and in the other module what
the rows hold is permuted. -/
structure PermutesRows (m m' : MetadataModule) (rid : ℕ) (σ : Equiv.Perm ℕ) : Prop where
  /-- No two rows are about the same position. -/
  distinct : ∀ a ∈ m.paramRowsOf rid, ∀ b ∈ m.paramRowsOf rid, a.sequence = b.sequence → a = b
  /-- The permutation keeps the rows of the run in the run. -/
  keeps : ∀ j, σ j ∈ m.membersOf .param rid ↔ j ∈ m.membersOf .param rid
  /-- What one row holds in the one module, another one holds in the other. -/
  moved : ∀ j ∈ m.membersOf .param rid,
    (m'.params.get? (σ j)).map ParamRow.contents = (m.params.get? j).map ParamRow.contents

/-- In modules that hold the same, but for members, a method is resolved to the same if the lists
of parameters are of the same length and the rows about each of its parameters hold the same. -/
lemma SameTypesAndMethods.resolveMethod_eq (h : m.SameTypesAndMethods m')
    (hcount : m'.memberCount .param = m.memberCount .param) {typeParameters : List String} {rid : ℕ}
    (hparams : ∀ count, m.paramCount? rid = some count → ∀ position, 1 ≤ position →
      position ≤ count →
        (lastAbout? (m'.paramRowsOf rid) position).map ParamRow.contents =
          (lastAbout? (m.paramRowsOf rid) position).map ParamRow.contents) :
    m'.resolveMethod typeParameters rid = m.resolveMethod typeParameters rid :=
  h.namesAlike.resolveMethod_eq h.methods.get? hcount (h.methodGenerics rid)
    (fun row hrow => ⟨by rw [h.blobs], h.methodMarks rid row hrow⟩) hparams

namespace SameBesidesParams

variable (h : m.SameBesidesParams m')
include h

/-- The lists of parameters are of the same length. -/
lemma memberCount_eq : m'.memberCount .param = m.memberCount .param := by
  unfold ModuleTables.memberCount
  simp only
  rw [h.paramPtrs.rowCount, h.paramCount]

/-- Methods own the same rows. -/
lemma membersOf_eq (rid : ℕ) : m'.membersOf .param rid = m.membersOf .param rid := by
  have hplaces : m'.memberAt? .param = m.memberAt? .param := by
    funext place
    unfold ModuleTables.memberAt?
    simp only
    rw [h.paramPtrs.rowCount, h.paramPtrs.get?]
  have hstarts : ∀ rid, m'.startAt .param rid = m.startAt .param rid :=
    ModuleTables.startAt_congr h.methods.get? h.memberCount_eq
  rw [ModuleTables.membersOf, ModuleTables.membersOf, hplaces, hstarts, hstarts, h.memberCount_eq]

/-- **Rows about other positions have no effect**, whatever they hold. -/
lemma resolveMethod_of_changesIdleRows {typeParameters : List String} {rid : ℕ}
    (hidle : m.ChangesIdleRows m' rid) :
    m'.resolveMethod typeParameters rid = m.resolveMethod typeParameters rid := by
  refine h.resolveMethod_eq h.memberCount_eq fun count hcount position hone hle => ?_
  rw [ModuleTables.paramRowsOf, ModuleTables.paramRowsOf, h.membersOf_eq]
  refine contents_lastAbout?_filterMap fun j hj => ?_
  -- A row about none of the parameters is about no position that is looked up.
  have hfilter : ∀ row?, IsIdle count row? → row?.filter (·.sequence = position) = none := by
    intro row? hrow
    refine Option.filter_eq_none_iff.mpr fun row hsome => ?_
    have hsequence := hrow row hsome
    rw [decide_eq_true_eq]
    omega
  rcases hidle count hcount j hj with hsame | ⟨hold, hnew⟩
  · rw [contents_filter, contents_filter, hsame]
  · rw [hfilter _ hold, hfilter _ hnew]

/-- **The order of rows has no effect**, if no two of them are about the same position. -/
lemma resolveMethod_of_permutesRows {typeParameters : List String} {rid : ℕ} {σ : Equiv.Perm ℕ}
    (hσ : m.PermutesRows m' rid σ) :
    m'.resolveMethod typeParameters rid = m.resolveMethod typeParameters rid := by
  refine h.resolveMethod_eq h.memberCount_eq fun count _ position _ _ => ?_
  refine contents_lastAbout?_of_distinct hσ.distinct (fun a ha => ?_) fun a' ha' => ?_
  · obtain ⟨j, hj, ha⟩ := List.mem_filterMap.mp ha
    have hmoved := hσ.moved j hj
    rw [ha] at hmoved
    obtain ⟨a', ha', hcontents⟩ := Option.map_eq_some_iff.mp hmoved
    exact ⟨a', List.mem_filterMap.mpr ⟨σ j, h.membersOf_eq rid ▸ (hσ.keeps j).mpr hj, ha'⟩,
      hcontents⟩
  · obtain ⟨j', hj', ha'⟩ := List.mem_filterMap.mp ha'
    rw [h.membersOf_eq] at hj'
    obtain ⟨j, rfl⟩ := σ.surjective j'
    have hj := (hσ.keeps j).mp hj'
    have hmoved := hσ.moved j hj
    rw [ha'] at hmoved
    obtain ⟨a, ha, hcontents⟩ := Option.map_eq_some_iff.mp hmoved.symm
    exact ⟨a, List.mem_filterMap.mpr ⟨j, hj, ha⟩, hcontents.symm⟩

end SameBesidesParams

/-! ## Parameters by position -/

/-- **Parameters are bound to rows by their positions.** A resolved method has one parameter for
each one in its signature, in the same order. Each of them is bound to the last row in the run of
the method that is about its position, counted from one: from there it has its name and its flags,
and it has neither if there is no such row. Rows that are about no parameter may hold anything, an
unreadable name or another position without a parameter, and the method is resolved to the same,
with the same warnings. So it is if what the rows hold is permuted, as long as no two of them are
about the same position.

**Proof sketch.** Looking a position up is finding the last row about it
(`getElem?_paramsByPosition`), and a method is resolved from what these rows hold
(`NamesAlike.resolveMethod_eq`). Rows about other positions are not among them, and in another
order they are the same, since each is the only one about its position. -/
theorem parameters_bind_by_sequence (m : MetadataModule) (typeParameters : List String) (rid : ℕ) :
    (∀ info, (m.resolveMethod typeParameters rid).result = .ok (some info) →
      ∃ row blob sig, m.methods.get? rid = some row ∧ m.blobs.get row.signature = .ok blob ∧
        MethodSig.ofBlob blob = .ok sig ∧
        (m.runOf .param row).result = .ok (m.membersOf .param rid) ∧
        info.parameters.length = sig.params.length ∧
        ∀ i param p, sig.params[i]? = some param → info.parameters[i]? = some p →
          m.Binds ⟨typeParameters, (m.methodGenerics[rid]?).getD []⟩ param
            (lastAbout? (m.paramRowsOf rid) (i + 1)) p) ∧
    ∀ m', m.SameBesidesParams m' →
      (m.ChangesIdleRows m' rid →
        m'.resolveMethod typeParameters rid = m.resolveMethod typeParameters rid) ∧
      ∀ σ, m.PermutesRows m' rid σ →
        m'.resolveMethod typeParameters rid = m.resolveMethod typeParameters rid := by
  refine ⟨fun info hinfo => ?_, fun m' h =>
    ⟨h.resolveMethod_of_changesIdleRows, fun σ => h.resolveMethod_of_permutesRows⟩⟩
  obtain ⟨row, name, hrow, -, ⟨-, hnone⟩ | ⟨-, blob, sig, run, info', heq, hblob, hsig, -, hrun,
    hparameters, -⟩⟩ := resolveMethod_eq_ok hinfo
  · cases hnone
  · cases heq
    have hmembers : (m.runOf .param row).result = .ok (m.membersOf .param rid) :=
      congrArg Resolution.result
        (@ModuleTables.runOf_eq_withWarnings m.toModuleTables .param rid row hrow)
    obtain rfl : run = m.membersOf .param rid := Except.ok.inj (hrun.symm.trans hmembers)
    refine ⟨row, blob, sig, hrow, hblob, hsig, hmembers, ?_, fun i param p hparam hp => ?_⟩
    · have hlength := congrArg List.length hparameters
      simpa using hlength.symm
    · have hi := congrArg (·[i]?) hparameters
      simp only [List.getElem?_map, List.getElem?_zipIdx, hparam, hp, Option.map_some,
        Option.some.injEq] at hi
      rw [ModuleTables.paramRowsOf, ← getElem?_paramsByPosition, Nat.add_comm]
      exact resolveParam_eq_ok_iff.mp hi

end MetadataModule

/-! ## Opened modules -/

namespace OpenModule

/-- Metadata with a method of three parameters and four rows of parameters. Of these, flags,
sequences and places of names are given. -/
def threeParamsMetadata (rows : List (UInt8 × UInt8 × UInt8)) : ByteArray :=
  let front : List UInt8 :=
    [0x42, 0x53, 0x4A, 0x42, 0x01, 0x00, 0x01, 0x00, 0x00, 0x00, 0x00, 0x00, 0x04, 0x00, 0x00, 0x00,
     0x76, 0x34, 0x00, 0x00, 0x00, 0x00, 0x03, 0x00, 0x48, 0x00, 0x00, 0x00, 0x58, 0x00, 0x00, 0x00,
     0x23, 0x7E, 0x00, 0x00, 0xA0, 0x00, 0x00, 0x00, 0x09, 0x00, 0x00, 0x00, 0x23, 0x53, 0x74, 0x72,
     0x69, 0x6E, 0x67, 0x73, 0x00, 0x00, 0x00, 0x00, 0xA9, 0x00, 0x00, 0x00, 0x09, 0x00, 0x00, 0x00,
     0x23, 0x42, 0x6C, 0x6F, 0x62, 0x00, 0x00, 0x00, 0x00, 0x00, 0x00, 0x00, 0x02, 0x00, 0x00, 0x01,
     0x44, 0x01, 0x00, 0x00, 0x00, 0x00, 0x00, 0x00, 0x00, 0x00, 0x00, 0x00, 0x00, 0x00, 0x00, 0x00,
     0x01, 0x00, 0x00, 0x00, 0x01, 0x00, 0x00, 0x00, 0x04, 0x00, 0x00, 0x00, 0x00, 0x00, 0x00, 0x00,
     0x01, 0x00, 0x00, 0x00, 0x00, 0x00, 0x01, 0x00, 0x01, 0x00, 0x00, 0x00, 0x00, 0x00, 0x00, 0x00,
     0x00, 0x00, 0x03, 0x00, 0x01, 0x00, 0x01, 0x00]
  let back : List UInt8 :=
    [0x00, 0x54, 0x00, 0x4D, 0x00, 0x61, 0x00, 0x63, 0x00, 0x00, 0x07, 0x20, 0x03, 0x01, 0x08, 0x10,
     0x08, 0x0E]
  let params := rows.flatMap fun (flags, sequence, name) => [flags, 0, sequence, 0, name, 0]
  ⟨(front ++ params ++ back).toArray⟩

/-- What these metadata hold, whatever the rows of parameters hold. -/
def threeParamsSources : Sources where
  strings := [0x00, 0x54, 0x00, 0x4D, 0x00, 0x61, 0x00, 0x63, 0x00]
  blobs := [0x00, 0x07, 0x20, 0x03, 0x01, 0x08, 0x10, 0x08, 0x0E]
  typeRefs := []
  typeDefs := [⟨1, 0, 1, 0, ⟨.typeDef, 0⟩, 1, 1⟩]
  typeSpecs := []
  methods := [⟨1, 0, 0, 0, 3, 1, 1⟩]
  methodPtrs := []
  nestedClasses := []
  genericParams := []

/-- Rows about the third parameter, the return value, the first parameter and one that does not
exist. -/
def threeParamsRows : List ParamRow :=
  [⟨1, 0, 3, 7⟩, ⟨2, 0, 0, 0x7F⟩, ⟨3, 2, 1, 5⟩, ⟨4, 0, 9, 0x7F⟩]

/-- The same rows, but for those that are about no parameter. -/
def otherIdleRows : List ParamRow :=
  [⟨1, 0, 3, 7⟩, ⟨2, 1, 0, 5⟩, ⟨3, 2, 1, 5⟩, ⟨4, 0, 4, 0⟩]

/-- The same rows in another order. -/
def swappedRows : List ParamRow :=
  [⟨1, 2, 1, 5⟩, ⟨2, 0, 0, 0x7F⟩, ⟨3, 0, 3, 7⟩, ⟨4, 0, 9, 0x7F⟩]

/-- What a module holds that is opened from these metadata with the given rows of parameters. -/
@[mk_iff]
structure HasParams (m : OpenModule) (rows : List ParamRow) : Prop where
  /-- Besides, it holds what these metadata hold. -/
  sources : m.HasSources threeParamsSources
  /-- Nothing is marked. -/
  unmarked : m.indexed.generated.toList = []
  /-- Parameters lie in their order. -/
  paramPtrs : m.indexed.paramPtrs.Holds []
  /-- It has these rows. -/
  params : m.indexed.params.Holds rows
  /-- The method owns four of them. -/
  members : m.indexed.membersOf .param 1 = [1, 2, 3, 4]
  /-- It has three parameters. -/
  count : m.indexed.paramCount? 1 = some 3
  /-- It is listed. -/
  listed : (m.indexed.resolveMethod [] 1).result.toOption.any Option.isSome

instance (m : OpenModule) (rows : List ParamRow) : Decidable (m.HasParams rows) :=
  decidable_of_iff' _ (m.hasParams_iff rows)

section ThreeParams

variable {m m' : OpenModule} {rows rows' : List ParamRow}

/-- Such modules hold the same, but for what the rows of parameters hold. -/
lemma HasParams.sameBesidesParams (h : m.HasParams rows) (h' : m'.HasParams rows')
    (hlength : rows'.length = rows.length) : m.indexed.SameBesidesParams m'.indexed := by
  have hmarks : ∀ token, m'.indexed.isGenerated token = m.indexed.isGenerated token := by
    intro token
    rw [isGenerated_eq_contains, isGenerated_eq_contains, h.unmarked, h'.unmarked]
  exact ⟨h.sources.sameTypesAndMethods h'.sources fun token _ => hmarks token,
    h'.params.1.trans (hlength.trans h.params.1.symm), h.paramPtrs.sameRows h'.paramPtrs⟩

/-- The rows in the run of the method have the numbers from one to four. -/
lemma HasParams.exists_of_mem (h : m.HasParams rows) {j : ℕ}
    (hj : j ∈ m.indexed.membersOf .param 1) : ∃ i < 4, j = i + 1 := by
  rw [h.members, show [1, 2, 3, 4] = List.range' 1 4 from rfl, List.mem_range'_1] at hj
  exact ⟨j - 1, by omega, by omega⟩

/-- The rows in the run of the method are all rows. -/
lemma HasParams.paramRowsOf_eq (h : m.HasParams threeParamsRows) :
    m.indexed.paramRowsOf 1 = threeParamsRows := by
  rw [ModuleTables.paramRowsOf, h.members]
  simp [h.params.get?_succ 0, h.params.get?_succ 1, h.params.get?_succ 2, h.params.get?_succ 3,
    threeParamsRows]

/-- Only rows about no parameter differ. -/
lemma HasParams.changesIdleRows (h : m.HasParams threeParamsRows)
    (h' : m'.HasParams otherIdleRows) : m.indexed.ChangesIdleRows m'.indexed 1 := by
  intro count hcount j hj
  obtain rfl : 3 = count := Option.some.inj (h.count.symm.trans hcount)
  obtain ⟨i, hi, rfl⟩ := h.exists_of_mem hj
  have hrows : ∀ i < 4, otherIdleRows[i]?.map ParamRow.contents =
        threeParamsRows[i]?.map ParamRow.contents ∨
      (MetadataModule.IsIdle 3 threeParamsRows[i]? ∧
        MetadataModule.IsIdle 3 otherIdleRows[i]?) := by decide
  rw [h.params.get?_succ, h'.params.get?_succ]
  exact hrows i hi

/-- Two rows have changed places. -/
lemma HasParams.permutesRows (h : m.HasParams threeParamsRows) (h' : m'.HasParams swappedRows) :
    m.indexed.PermutesRows m'.indexed 1 (Equiv.swap 1 3) := by
  refine ⟨by rw [h.paramRowsOf_eq]; decide, fun j => ?_, fun j hj => ?_⟩
  · rw [h.members, Equiv.swap_apply_def]
    split_ifs with hone hthree
    · simp [hone]
    · simp [hthree]
    · rfl
  · obtain ⟨i, hi, rfl⟩ := h.exists_of_mem hj
    have hrows : ∀ i < 4, ∃ k < 4, Equiv.swap 1 3 (i + 1) = k + 1 ∧
        swappedRows[k]?.map ParamRow.contents = threeParamsRows[i]?.map ParamRow.contents := by
      decide
    obtain ⟨k, -, hk, hcontents⟩ := hrows i hi
    rw [hk, h.params.get?_succ, h'.params.get?_succ, hcontents]

end ThreeParams

/-- A method with three parameters by the general law. The rows in its run are about the third
parameter, the return value, the first parameter and one that does not exist; two of the names
cannot be read, and the second parameter has no row. Other rows about the return value and about no
parameter have no effect, nor has another order. -/
theorem parameters_bind_by_sequence_threeParams :
    ∃ m m₁ m₂ info first second,
      ofMetadata (threeParamsMetadata [(0, 3, 7), (0, 0, 0x7F), (2, 1, 5), (0, 9, 0x7F)]) =
        .ok m ∧
      ofMetadata (threeParamsMetadata [(0, 3, 7), (1, 0, 5), (2, 1, 5), (0, 4, 0)]) = .ok m₁ ∧
      ofMetadata (threeParamsMetadata [(2, 1, 5), (0, 0, 0x7F), (0, 3, 7), (0, 9, 0x7F)]) =
        .ok m₂ ∧
      (m.indexed.resolveMethod [] 1).result = .ok (some info) ∧ info.parameters.length = 3 ∧
      (info.parameters[0]? = some first ∧ m.strings.get 5 = .ok first.name ∧ first.isOut = true) ∧
      (info.parameters[1]? = some second ∧ second.name = "" ∧ second.isOut = false) ∧
      m₁.indexed.resolveMethod [] 1 = m.indexed.resolveMethod [] 1 ∧
      m₂.indexed.resolveMethod [] 1 = m.indexed.resolveMethod [] 1 := by
  obtain ⟨m, hopen, htest⟩ : ∃ m, ofMetadata
      (threeParamsMetadata [(0, 3, 7), (0, 0, 0x7F), (2, 1, 5), (0, 9, 0x7F)]) = .ok m ∧
      decide (m.HasParams threeParamsRows) = true := exists_ok_of_any (by decide +kernel)
  obtain ⟨m₁, hopen₁, htest₁⟩ : ∃ m, ofMetadata
      (threeParamsMetadata [(0, 3, 7), (1, 0, 5), (2, 1, 5), (0, 4, 0)]) = .ok m ∧
      decide (m.HasParams otherIdleRows) = true := exists_ok_of_any (by decide +kernel)
  obtain ⟨m₂, hopen₂, htest₂⟩ : ∃ m, ofMetadata
      (threeParamsMetadata [(2, 1, 5), (0, 0, 0x7F), (0, 3, 7), (0, 9, 0x7F)]) = .ok m ∧
      decide (m.HasParams swappedRows) = true := exists_ok_of_any (by decide +kernel)
  have hm := of_decide_eq_true htest
  have hm₁ := of_decide_eq_true htest₁
  have hm₂ := of_decide_eq_true htest₂
  obtain ⟨info?, hresult, hinfo⟩ := exists_ok_of_any hm.listed
  obtain ⟨info, rfl⟩ := Option.isSome_iff_exists.mp hinfo
  obtain ⟨hbind, heffects⟩ := MetadataModule.parameters_bind_by_sequence m.indexed [] 1
  obtain ⟨row, blob, sig, hrow, hblob, hsig, -, hlength, hbinds⟩ := hbind info hresult
  have hthree : sig.params.length = 3 :=
    Option.some.inj ((MetadataModule.paramCount?_eq_some hrow hblob hsig).symm.trans hm.count)
  have hparameter : ∀ i < 3, ∃ param p, info.parameters[i]? = some p ∧
      m.indexed.Binds ⟨[], (m.indexed.methodGenerics[1]?).getD []⟩ param
        (lastAbout? (m.indexed.paramRowsOf 1) (i + 1)) p := by
    intro i hi
    have hparam := List.getElem?_eq_getElem (l := sig.params) (i := i) (by omega)
    have hp := List.getElem?_eq_getElem (l := info.parameters) (i := i) (by omega)
    exact ⟨_, _, hp, hbinds i _ _ hparam hp⟩
  rw [hm.paramRowsOf_eq] at hparameter
  obtain ⟨_, first, hfirst, hfirstBinds⟩ := hparameter 0 (by decide)
  obtain ⟨_, second, hsecond, hsecondBinds⟩ := hparameter 1 (by decide)
  exact ⟨m, m₁, m₂, info, first, second, hopen, hopen₁, hopen₂, hresult, by omega,
    ⟨hfirst, hfirstBinds.name ⟨3, 2, 1, 5⟩ rfl, hfirstBinds.isOut⟩,
    ⟨hsecond, hsecondBinds.unnamed rfl, hsecondBinds.isOut⟩,
    (heffects _ (hm.sameBesidesParams hm₁ rfl)).1 (hm.changesIdleRows hm₁),
    (heffects _ (hm.sameBesidesParams hm₂ rfl)).2 _ (hm.permutesRows hm₂)⟩

end OpenModule

end TypeInventory
