import TypeInventory.Proofs.Naming.Faults
import TypeInventory.Proofs.Naming.Cycles

set_option relaxedAutoImplicit false
set_option autoImplicit false

/-!
# Two limits on nesting

Signatures are read with a limit on their nesting, and types are named with a limit on the depth of
the recursion. Both are `nestingLimit`, but they are not counted alike. Reading counts each type
when it is entered, from one upwards, and refuses the type that makes the count reach the limit;
naming counts from zero, and takes one level more than there are types where it follows a token. So
a type that has been read takes all levels but one, and the token at its end the last one: the
limits agree, and there is no level left over.

## Main definitions

* `TypeSig.followedTokens` — the tokens that naming follows from a signature.
* `MetadataModule.IsFinal` — the tokens that are named without going on to other types.
* `MetadataModule.FitsWithin` — the nodes for whose names so many levels suffice.

## Main results

* `MetadataModule.FitsWithin.of_follows` — one step takes one level.
* `MetadataModule.yields_nameWithin_of_fitsWithin` — the levels suffice.
* `SignatureReader.nesting_limits_agree` — no accepted signature is nested too deep to be named.
* `TypeSig.ofBlob_vectorsBlob`, `MetadataModule.signatureNameWithin_vectors` — there are accepted
  signatures that take all levels.
-/

namespace TypeInventory

/-! ## Tokens that are followed -/

namespace TypeSig

mutual

/-- The tokens that naming follows from a signature. The type that an instantiation starts from is
looked up by its name alone, and a pointer to a method is not looked into. -/
def followedTokens : TypeSig → List Token
  | .primitive _ => []
  | .pointer target => target.followedTokens
  | .byRef target => target.followedTokens
  | .valueType token => [token]
  | .classType token => [token]
  | .typeParameter _ => []
  | .methodParameter _ => []
  | .array element _ => element.followedTokens
  | .vector element => element.followedTokens
  | .instantiation _ args => followedTokensOfList args
  | .functionPointer _ => []
  | .pinned target => target.followedTokens

/-- The tokens that naming follows from signatures in a row. -/
def followedTokensOfList : List TypeSig → List Token
  | [] => []
  | t :: ts => t.followedTokens ++ followedTokensOfList ts

end

lemma followedTokensOfList_eq (ts : List TypeSig) :
    followedTokensOfList ts = ts.flatMap followedTokens := by
  induction ts with
  | nil => rfl
  | cons t ts ih => rw [followedTokensOfList, ih, List.flatMap_cons]

/-- The tokens of an argument are among those of the instantiation. -/
lemma followedTokens_subset_of_mem {base arg : TypeSig} {args : List TypeSig} (h : arg ∈ args) :
    arg.followedTokens ⊆ (instantiation base args).followedTokens := by
  intro token htoken
  rw [followedTokens, followedTokensOfList_eq]
  exact List.mem_flatMap_of_mem h htoken

/-- An argument is nested less deep than the instantiation. -/
lemma nesting_lt_of_mem (base : TypeSig) {arg : TypeSig} {args : List TypeSig} (h : arg ∈ args) :
    arg.nesting < (instantiation base args).nesting := by
  have hmax : arg.nesting ≤ (args.map nesting).foldr max 0 :=
    List.le_max_of_le (List.mem_map_of_mem h) le_rfl
  rw [nesting_instantiation]
  omega

end TypeSig

/-! ## Levels that nodes take -/

namespace MetadataModule

variable (m : MetadataModule) (scope : GenericScope)

/-- The tokens that are named without going on to other types: those of other modules' types, and
those of types that have generic parameters, are not nested, or are nested and public. -/
inductive IsFinal : Token → Prop where
  /-- A type of another module. -/
  | typeRef {token : Token} (htable : token.table = TableId.typeRef.number) : IsFinal token
  /-- A type with generic parameters. -/
  | generic {token : Token} {parameters : List String}
    (htable : token.table = TableId.typeDef.number)
    (hgenerics : m.typeGenerics[token.row]? = some parameters) : IsFinal token
  /-- A type that is not nested. -/
  | outermost {token : Token} (htable : token.table = TableId.typeDef.number)
    (houter : m.enclosing[token.row]? = none) : IsFinal token
  /-- A nested type that is public. -/
  | nestedPublic {token : Token} {row : TypeDefRow}
    (htable : token.table = TableId.typeDef.number)
    (hrow : m.typeDefs.get? token.row = some row)
    (hvisibility : row.flags % visibilityBits = nestedPublic) : IsFinal token

/-- The nodes for whose names `levels` levels suffice: one for each type around the innermost one,
itself included, and one for a token. -/
inductive FitsWithin : ℕ → NameNode → Prop where
  /-- A signature. -/
  | signature {levels : ℕ} {sig : TypeSig} (hnesting : sig.nesting < levels)
    (htokens : ∀ token ∈ sig.followedTokens, m.IsFinal token) : FitsWithin levels (.signature sig)
  /-- A token. -/
  | token {levels : ℕ} {token : Token} (hlevels : 0 < levels) (htoken : m.IsFinal token) :
    FitsWithin levels (.token token)

/-! ## Enough levels -/

variable {m}

/-- A final token is none of a constructed type. -/
lemma IsFinal.table_ne_typeSpec {token : Token} (h : m.IsFinal token) :
    token.table ≠ TableId.typeSpec.number := by
  intro hspec
  cases h with
  | typeRef htable => exact absurd (hspec.symm.trans htable) (by decide)
  | generic htable _ => exact absurd (hspec.symm.trans htable) (by decide)
  | outermost htable _ => exact absurd (hspec.symm.trans htable) (by decide)
  | nestedPublic htable _ _ => exact absurd (hspec.symm.trans htable) (by decide)

/-- A final token leads to no other node. -/
lemma IsFinal.not_follows {token : Token} (h : m.IsFinal token) {y : NameNode} :
    ¬m.Follows (.token token) y := by
  intro hfollows
  cases hfollows with
  | typeSpec hspec => exact h.table_ne_typeSpec hspec
  | enclosing hdef hrow _ _ _ hgenerics houter hvisibility =>
    cases h with
    | typeRef htable => exact absurd (hdef.symm.trans htable) (by decide)
    | generic _ hgenerics' => exact Option.some_ne_none _ (hgenerics'.symm.trans hgenerics)
    | outermost _ houter' => exact Option.some_ne_none _ (houter.symm.trans houter')
    | nestedPublic _ hrow' hvisibility' =>
      obtain rfl := Option.some.inj (hrow.symm.trans hrow')
      exact hvisibility hvisibility'

namespace FitsWithin

variable {levels : ℕ} {x y : NameNode} {e : Fault}

/-- At least one level is needed. -/
lemma not_zero (h : m.FitsWithin 0 x) : False := by
  cases h with
  | signature hnesting _ => exact Nat.not_lt_zero _ hnesting
  | token hlevels _ => exact Nat.lt_irrefl 0 hlevels

/-- **One step takes one level.** For the nodes that are followed one level less suffices. -/
lemma of_follows (h : m.FitsWithin (levels + 1) x) (hfollows : m.Follows x y) :
    m.FitsWithin levels y := by
  cases h with
  | token _ htoken => exact absurd hfollows htoken.not_follows
  | signature hnesting htokens =>
    cases hfollows with
    | classType token | valueType token =>
      exact .token (Nat.lt_of_succ_lt_succ hnesting) (htokens token List.mem_cons_self)
    | vector | array | byRef | pinned | pointer =>
      exact .signature (Nat.lt_of_succ_lt_succ hnesting) htokens
    | @argument base arg args harg =>
      -- The type that it starts from counts for its nesting, but takes no level of naming.
      have hlt := TypeSig.nesting_lt_of_mem base harg
      refine .signature (by omega) fun token htoken => ?_
      exact htokens token (TypeSig.followedTokens_subset_of_mem harg htoken)

/-- A look is not refused for the nesting: no constructed type is read. -/
lemma ne_nesting (h : m.FitsWithin levels x) (he : LookFault x e) : e ≠ .nesting := by
  rintro rfl
  cases he with
  | lookup he => cases he
  | signature hspec _ =>
    cases h with
    | token _ htoken => exact htoken.table_ne_typeSpec hspec

end FitsWithin

/-- **The levels suffice.** A node that fits within some levels is named within them, or fails for
another reason. -/
lemma yields_nameWithin_of_fitsWithin {levels : ℕ} {x : NameNode} (h : m.FitsWithin levels x) :
    Yields (m.nameWithin scope levels x) (fun _ => True) (· ≠ .nesting) :=
  yields_nameWithin_of_inv scope m.FitsWithin (fun _ hx => hx.not_zero.elim)
    (fun _ _ _ hx => hx.ne_nesting) (fun _ _ _ hx => hx.of_follows) levels h

/-- A signature that is nested less deep than the limit, and whose tokens are final, is not refused
for its nesting. -/
lemma signatureName_ne_nesting {sig : TypeSig} (hnesting : sig.nesting < nestingLimit)
    (htokens : ∀ token ∈ sig.followedTokens, m.IsFinal token) :
    m.signatureName scope sig ≠ .error .nesting := by
  intro herror
  have hname := yields_nameWithin_of_fitsWithin scope (.signature hnesting htokens)
  exact hname.of_eq_error herror rfl

end MetadataModule

/-! ## Accepted signatures -/

namespace SignatureReader

/-- In a blob, a type may be entered one time less than the limit. -/
lemma levelsAt_zero_lt : levelsAt 0 < nestingLimit := by
  decide

/-- The signature of a type or a field is nested less deep than the limit. -/
lemma nesting_lt_of_read {read : ByteArray → Except Fault TypeSig}
    (hread : read ∈ [TypeSig.ofBlob, TypeSig.ofFieldBlob]) {blob : ByteArray} {sig : TypeSig}
    (h : read blob = .ok sig) : sig.nesting < nestingLimit := by
  have hnesting : Yields (read blob) (fun t => t.nesting ≤ levelsAt 0) SignatureFault := by
    simp only [List.mem_cons, List.not_mem_nil, or_false] at hread
    rcases hread with rfl | rfl
    · exact yields_runOn ((meets_type _).imp fun t _ ht => ht.nesting)
    · exact yields_runOn ((meets_field _).imp fun t _ ht => ht.1.nesting)
  exact Nat.lt_of_le_of_lt (hnesting.of_eq_ok h) levelsAt_zero_lt

/-- So are the types of the return value and of the parameters of a method. -/
lemma nesting_lt_of_readMethod {blob : ByteArray} {sig : MethodSig}
    (h : MethodSig.ofBlob blob = .ok sig) {p : ParamSig} (hp : p ∈ sig.returns :: sig.params) :
    p.type.nesting < nestingLimit := by
  have hread : Yields (MethodSig.ofBlob blob) (fun m => m.nesting ≤ levelsAt 0) SignatureFault :=
    yields_runOn ((meets_method _).imp fun m _ hm => hm.nesting)
  have hnesting := hread.of_eq_ok h
  have hmethod : p.type.nesting ≤ sig.nesting := by
    rw [MethodSig.nesting]
    rcases List.mem_cons.mp hp with rfl | hp
    · exact Nat.le_max_left _ _
    · exact le_max_of_le_right (List.le_max_of_le (List.mem_map_of_mem hp) le_rfl)
  exact Nat.lt_of_le_of_lt (hmethod.trans hnesting) levelsAt_zero_lt

/-- **The limits on nesting agree.** Let the signature of a type, of a field or of a method be
accepted, from whatever bytes, and let a type in it be named in whatever module and scope. If all
tokens that naming follows from it are final, its name is never refused for its nesting.

**Proof sketch.** What is accepted is nested less deep than the limit. One level for each type
around the innermost one, itself included, and one for a token are enough, by induction on the
levels. -/
theorem nesting_limits_agree (blob : ByteArray) (m : MetadataModule) (scope : GenericScope) :
    (∀ read ∈ [TypeSig.ofBlob, TypeSig.ofFieldBlob], ∀ sig, read blob = .ok sig →
      (∀ token ∈ sig.followedTokens, m.IsFinal token) →
        m.signatureName scope sig ≠ .error .nesting) ∧
    ∀ sig, MethodSig.ofBlob blob = .ok sig → ∀ p ∈ sig.returns :: sig.params,
      (∀ token ∈ p.type.followedTokens, m.IsFinal token) →
        m.signatureName scope p.type ≠ .error .nesting := by
  refine ⟨fun read hread sig h htokens => ?_, fun sig h p hp htokens => ?_⟩
  · exact MetadataModule.signatureName_ne_nesting scope (nesting_lt_of_read hread h) htokens
  · exact MetadataModule.signatureName_ne_nesting scope (nesting_lt_of_readMethod h hp) htokens

end SignatureReader

/-! ## No level is left over -/

namespace TypeSig

/-- Vectors of vectors, `n` of them around a type. -/
def vectors (n : ℕ) (t : TypeSig) : TypeSig :=
  vector^[n] t

lemma vectors_succ (n : ℕ) (t : TypeSig) : vectors (n + 1) t = .vector (vectors n t) :=
  Function.iterate_succ_apply' vector n t

lemma nesting_vectors (n : ℕ) (t : TypeSig) : (vectors n t).nesting = t.nesting + n := by
  induction n with
  | zero => rfl
  | succ n ih => rw [vectors_succ, nesting, ih, Nat.add_assoc]

lemma followedTokens_vectors (n : ℕ) (t : TypeSig) :
    (vectors n t).followedTokens = t.followedTokens := by
  induction n with
  | zero => rfl
  | succ n ih => rw [vectors_succ, followedTokens, ih]

lemma Storable.vectors {t : TypeSig} (h : t.Storable) (n : ℕ) : (vectors n t).Storable := by
  induction n with
  | zero => exact h
  | succ n ih =>
    rw [vectors_succ]
    exact .vector ih

lemma written_vectors {t : TypeSig} {bytes : List UInt8} (h : t.Written bytes) (n : ℕ) :
    (vectors n t).Written (List.replicate n ElementKind.vector.code ++ bytes) := by
  induction n with
  | zero => exact h
  | succ n ih =>
    rw [vectors_succ]
    exact .intro [] (.vector ih)

/-- The blob of a reference type behind `n` vectors. -/
def vectorsBlob (n : ℕ) (token : Token) : ByteArray :=
  ⟨(List.replicate n ElementKind.vector.code ++
    ElementKind.classType.code :: token.typeBytes).toArray⟩

/-- A reference type behind vectors is accepted as long as there are less than `nestingLimit` types
in all. -/
lemma ofBlob_vectorsBlob {n : ℕ} {token : Token} (htoken : token.NamesType)
    (hn : n + 1 < nestingLimit) :
    ofBlob (vectorsBlob n token) = .ok (vectors n (.classType token)) := by
  have hstorable := (Storable.classType htoken).vectors n
  have hclass : (classType token).Written (ElementKind.classType.code :: token.typeBytes) :=
    .intro [] (.classType token)
  have hwritten := written_vectors hclass n
  have hdecodes := ((SignatureReader.answersBare_type hstorable).answers_modified hwritten).decodes
  have hrun := (hdecodes []).1 (by rwa [nesting_vectors, Nat.add_comm])
  rw [List.append_nil] at hrun
  rw [ofBlob, SignatureReader.runOn, vectorsBlob, hrun]

end TypeSig

/-- A token behind as many types as there are levels is not reached. -/
lemma MetadataModule.signatureNameWithin_vectors (m : MetadataModule) (scope : GenericScope)
    (n : ℕ) (token : Token) :
    m.signatureNameWithin scope (n + 1) (.vectors n (.classType token)) = .error .nesting := by
  induction n with
  | zero => rfl
  | succ n ih =>
    rw [TypeSig.vectors_succ, signatureNameWithin, ih]
    rfl

namespace SignatureReader

/-- The law for a class behind as many vectors as are accepted. It has a name, but with one level
less it would have none. -/
theorem nesting_limits_agree_vectors :
    ∃ m sig, OpenModule.ofMetadata OpenModule.circularMetadata = .ok m ∧
      TypeSig.ofBlob (TypeSig.vectorsBlob 48 (TableId.typeDef.token 1)) = .ok sig ∧
      sig.nesting + 1 = nestingLimit ∧ sig.followedTokens = [TableId.typeDef.token 1] ∧
      m.indexed.signatureName {} sig ≠ .error .nesting ∧
      (m.indexed.signatureName {} sig).isOk = true ∧
      m.indexed.signatureNameWithin {} (nestingLimit - 1) sig = .error .nesting := by
  have hread := TypeSig.ofBlob_vectorsBlob (namesType_token_typeDef 1) (n := 48) (by decide)
  have htest : (OpenModule.ofMetadata OpenModule.circularMetadata).toOption.any (fun m =>
      m.indexed.enclosing[1]? = none ∧ (m.indexed.signatureName {}
        (.vectors 48 (.classType (TableId.typeDef.token 1)))).isOk = true) = true := by
    decide +kernel
  obtain ⟨m, hopen, htest⟩ := exists_ok_of_any htest
  obtain ⟨houter, hnamed⟩ := of_decide_eq_true htest
  have htokens := TypeSig.followedTokens_vectors 48 (.classType (TableId.typeDef.token 1))
  rw [TypeSig.followedTokens] at htokens
  have hname := (nesting_limits_agree _ m.indexed {}).1 _ List.mem_cons_self _ hread
    (htokens ▸ List.forall_mem_singleton.mpr (.outermost rfl houter))
  refine ⟨m, _, hopen, hread, ?_, htokens, hname, hnamed, ?_⟩
  · rw [TypeSig.nesting_vectors]
    rfl
  · exact m.indexed.signatureNameWithin_vectors {} 48 _

end SignatureReader

end TypeInventory
