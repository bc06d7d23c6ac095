import TypeInventory.Proofs.Naming.Recursion
import TypeInventory.Proofs.Signature.Accepted
import TypeInventory.Proofs.Signature.RoundTrip

set_option relaxedAutoImplicit false
set_option autoImplicit false

/-!
# Faults of naming

Naming a type has branches for signatures that make no sense: an instantiation of something that is
no named type, a token of a table that holds no types. No accepted signature leads there. It fits
the format, and so does every signature that is met on the way from it, because the signatures of
constructed types are accepted by the same reader.

The argument has the shape of a proof of type safety. A look at a node that fits the format fails
only in a few ways, and otherwise leads to nodes that fit the format as well.

## Main definitions

* `Yields` — what holds of a value, and of an error.
* `LookFault` — the faults with which one step of naming fails.
* `NameNode.Fits` — the nodes that fit the format.
* `LookupFault`, `NamingFault` — the faults for which the names of a row are not found, and those
  for which a node that fits the format cannot be named.
* `senselessWords`, `Fault.IsSenseless` — the wordings for signatures that make no sense.

## Main results

* `MetadataModule.yields_look` — how one step of naming fails, and where it leads otherwise.
* `MetadataModule.yields_nameWithin_of_inv` — what the steps pass on holds at all levels.
* `NameNode.Fits.of_follows`, `MetadataModule.yields_nameWithin` — a node that fits the format.
* `NamingFault.not_isSenseless` — such a node is never said to make no sense.
* `SignatureReader.accepted_signatures` — what holds of every accepted signature.
-/

namespace TypeInventory

/-! ## Values and errors -/

section Outcomes

variable {ε α β : Type} {x : Except ε α} {post : α → Prop} {fault : ε → Prop}

/-- A value as `post` says, or an error as `fault` says. -/
def Yields (x : Except ε α) (post : α → Prop) (fault : ε → Prop) : Prop :=
  match x with
  | .ok a => post a
  | .error e => fault e

/-- What holds of every value holds of the one that is given. -/
lemma Yields.of_eq_ok {a : α} (h : Yields x post fault) (hx : x = .ok a) : post a := by
  rwa [hx] at h

/-- What holds of every error holds of the one that is given. -/
lemma Yields.of_eq_error {e : ε} (h : Yields x post fault) (hx : x = .error e) : fault e := by
  rwa [hx] at h

/-- Of the value that is given, it may be said which one it is. -/
lemma Yields.eq_ok (h : Yields x post fault) : Yields x (fun a => x = .ok a) fault := by
  cases x with
  | ok a => exact rfl
  | error e => exact h

/-- Less may be said of an error. -/
lemma Yields.imp_fault {fault' : ε → Prop} (h : Yields x post fault)
    (hfault : ∀ e, fault e → fault' e) : Yields x post fault' := by
  cases x with
  | ok a => exact h
  | error e => exact hfault e h

/-- The second of two computations starts from what the first one gives. -/
lemma yields_bind {f : α → Except ε β} {post' : β → Prop} (hx : Yields x post fault)
    (hf : ∀ a, post a → Yields (f a) post' fault) : Yields (x >>= f) post' fault := by
  cases x with
  | ok a => exact hf a hx
  | error e => exact hx

/-- All members of a list are computed one after another. -/
lemma yields_mapM {f : α → Except ε β} {as : List α}
    (hf : ∀ a ∈ as, Yields (f a) (fun _ => True) fault) :
    Yields (as.mapM f) (fun _ => True) fault := by
  induction as with
  | nil => exact trivial
  | cons a as ih =>
    rw [List.forall_mem_cons] at hf
    rw [List.mapM_cons]
    apply yields_bind hf.1
    intro b _
    exact yields_bind (ih hf.2) fun _ _ => trivial

/-- What is read from a blob is what its reader gives. -/
lemma yields_runOn {r : SignatureReader α} {blob : ByteArray} {fault : Fault → Prop}
    (h : Meets r (.ofBlob blob) (fun a _ => post a) fault) : Yields (r.runOn blob) post fault := by
  rw [SignatureReader.runOn]
  cases hrun : r.run (.ofBlob blob) with
  | ok a s => exact h.of_run_eq_ok hrun
  | error e s => exact h.of_run_eq_error hrun

end Outcomes

/-! ## Faults -/

/-- The faults for which the names of a row are not found. -/
inductive LookupFault : Fault → Prop
  | outOfBounds : LookupFault .outOfBounds
  | unreadableString (index : ℕ) : LookupFault (.malformed (.unreadableString index))
  | missingTypeDef (row : ℕ) : LookupFault (.malformed (.missingTypeDef row))
  | missingTypeRef (row : ℕ) : LookupFault (.malformed (.missingTypeRef row))

/-- The faults for which a signature or token that fits the format cannot be named. -/
inductive NamingFault : Fault → Prop
  | signature {e : Fault} (h : SignatureFault e) : NamingFault e
  | unreadableString (index : ℕ) : NamingFault (.malformed (.unreadableString index))
  | missingTypeDef (row : ℕ) : NamingFault (.malformed (.missingTypeDef row))
  | missingTypeRef (row : ℕ) : NamingFault (.malformed (.missingTypeRef row))
  | danglingTypeDef (token : Token) : NamingFault (.malformed (.danglingTypeDef token))
  | danglingTypeSpec (token : Token) : NamingFault (.malformed (.danglingTypeSpec token))
  | instantiationOfToken (token : Token) : NamingFault (.malformed (.instantiationOfToken token))

lemma LookupFault.namingFault {e : Fault} (h : LookupFault e) : NamingFault e := by
  cases h with
  | outOfBounds => exact .signature .outOfBounds
  | unreadableString index => exact .unreadableString index
  | missingTypeDef row => exact .missingTypeDef row
  | missingTypeRef row => exact .missingTypeRef row

/-- The wordings for signatures that make no sense, up to what they show of the signature. -/
def senselessWords : List String :=
  ["Generic instantiation over non-type", "Unsupported type in member signature",
    "Unsupported type token"]

/-- A fault that is shown as a signature that makes no sense. -/
def Fault.IsSenseless (e : Fault) : Prop :=
  ∃ words ∈ senselessWords, ("Malformed - " ++ words).toList <+: e.message.toList

/-- Of two starts of one text, one starts with the other. -/
lemma not_prefix_append {words start : String} (rest : String)
    (h : ¬words.toList <+: start.toList ∧ ¬start.toList <+: words.toList) :
    ¬words.toList <+: (start ++ rest).toList := by
  intro hprefix
  rw [String.toList_append] at hprefix
  rcases List.prefix_or_prefix_of_prefix hprefix (List.prefix_append _ _) with hle | hle
  · exact h.1 hle
  · exact h.2 hle

/-- A malformation whose wording starts otherwise is none of those. -/
lemma not_isSenseless_of_words {cause : Malformation} (start rest : String)
    (hmessage : cause.message = start ++ rest)
    (hstart : ∀ words ∈ senselessWords,
      ¬words.toList <+: start.toList ∧ ¬start.toList <+: words.toList) :
    ¬(Fault.malformed cause).IsSenseless := by
  rintro ⟨words, hwords, hprefix⟩
  have hmalformed : (Fault.malformed cause).message = "Malformed - " ++ (start ++ rest) :=
    congrArg ("Malformed - " ++ ·) hmessage
  rw [hmalformed, @String.toList_append _ words, @String.toList_append _ (start ++ rest)] at hprefix
  apply not_prefix_append rest (hstart words hwords)
  exact (List.prefix_append_right_inj _).mp hprefix

/-- A fault that is shown otherwise than a malformation is none of them. -/
lemma not_isSenseless_of_message {e : Fault} (start rest : String)
    (hmessage : e.message = start ++ rest)
    (hstart : ¬"Malformed - ".toList <+: start.toList ∧ ¬start.toList <+: "Malformed - ".toList) :
    ¬e.IsSenseless := by
  rintro ⟨words, -, hprefix⟩
  rw [hmessage, @String.toList_append _ words] at hprefix
  exact not_prefix_append rest hstart ((List.prefix_append _ _).trans hprefix)

/-- **What fits the format is never said to make no sense.** -/
lemma NamingFault.not_isSenseless {e : Fault} (h : NamingFault e) : ¬e.IsSenseless := by
  cases h with
  | signature h =>
    cases h with
    | outOfBounds =>
      exact not_isSenseless_of_message "Out of Bound read would have occurred!" "" rfl (by decide)
    | nesting =>
      exact not_isSenseless_of_message "Reach the maximum recursion level allowed - " _ rfl
        (by decide)
    | compressedLead byte =>
      exact not_isSenseless_of_words "Invalid compressed uint - " _ rfl (by decide)
    | compressedToken value =>
      exact not_isSenseless_of_words "Invalid compressed token - " _ rfl (by decide)
    | callingConvention byte =>
      exact not_isSenseless_of_words "SignatureMethod - invalid calling convention - " _ rfl
        (by decide)
    | fieldHead byte =>
      exact not_isSenseless_of_words "SignatureField - invalid start - " _ rfl (by decide)
    | instantiationHead byte =>
      exact not_isSenseless_of_words "GENERICINST - Next byte is not TYPE_CLASS or TYPE_VALUE - " _
        rfl (by decide)
    | elementType byte =>
      exact not_isSenseless_of_words "Unsupported ELEMENT_TYPE - " _ rfl (by decide)
  | unreadableString index =>
    exact not_isSenseless_of_words "Invalid string at index - " _ rfl (by decide)
  | missingTypeDef row =>
    exact not_isSenseless_of_words "Failed to resolve TypeDef - " _ rfl (by decide)
  | missingTypeRef row =>
    exact not_isSenseless_of_words "Failed to resolve TypeRef - " _ rfl (by decide)
  | danglingTypeDef token =>
    exact not_isSenseless_of_words "Failed to resolve TypeDef - " _ rfl (by decide)
  | danglingTypeSpec token =>
    exact not_isSenseless_of_words "Failed to resolve TypeSpec - " _ rfl (by decide)
  | instantiationOfToken token =>
    exact not_isSenseless_of_words "Generic instantiation over unsupported token - " _ rfl
      (by decide)

/-- The wordings are in use: this is how a fault is shown that no accepted signature leads to. -/
example : (Fault.malformed .instantiationOfNonType).IsSenseless :=
  ⟨_, List.mem_cons_self, by decide⟩

/-! ## Steps -/

/-- The faults with which a look at a node fails. -/
inductive LookFault : NameNode → Fault → Prop
  /-- The names of a row are not found. -/
  | lookup {x : NameNode} {e : Fault} (h : LookupFault e) : LookFault x e
  /-- There is no row of the token. -/
  | danglingTypeDef (token : Token) :
    LookFault (.token token) (.malformed (.danglingTypeDef token))
  /-- There is no row of the token. -/
  | danglingTypeSpec (token : Token) :
    LookFault (.token token) (.malformed (.danglingTypeSpec token))
  /-- The signature of a constructed type is refused. -/
  | signature {token : Token} {e : Fault} (htable : token.table = TableId.typeSpec.number)
    (h : SignatureFault e) : LookFault (.token token) e
  /-- The token is none of a type. -/
  | typeToken {token : Token} (h : ¬token.NamesType) :
    LookFault (.token token) (.malformed (.typeToken token))
  /-- The token that an instantiation starts from is that of a constructed type. -/
  | instantiationOfToken (token : Token) (base : TypeSig) (args : List TypeSig) :
    LookFault (.signature (.instantiation base args)) (.malformed (.instantiationOfToken token))
  /-- An instantiation starts from no token. -/
  | instantiationOfNonType {base : TypeSig} (h : ¬base.IsNamed) (args : List TypeSig) :
    LookFault (.signature (.instantiation base args)) (.malformed .instantiationOfNonType)

lemma StringHeap.yields_get (heap : StringHeap) (index : ℕ) :
    Yields (heap.get index) (fun _ => True) LookupFault := by
  unfold StringHeap.get
  split_ifs
  · split
    · split
      · trivial
      · exact .unreadableString index
    · exact .unreadableString index
  · exact .outOfBounds

lemma BlobHeap.yields_get (heap : BlobHeap) (index : ℕ) :
    Yields (heap.get index) (fun _ => True) SignatureFault := by
  have hblob : Meets blob ⟨heap.data, index⟩ (fun _ _ => True) SignatureFault := by
    refine meets_bind (Reader.meets_compressed _) fun length c _ => ?_
    rw [Meets, Reader.run_bytes]
    split_ifs
    · trivial
    · exact .outOfBounds
  rw [BlobHeap.get]
  cases hrun : blob.run ⟨heap.data, index⟩ with
  | ok b c => trivial
  | error e c => exact hblob.of_run_eq_error hrun

/-- A blob is refused, or gives a signature that fits the format. -/
lemma TypeSig.yields_ofBlob (blob : ByteArray) : Yields (ofBlob blob) Storable SignatureFault :=
  yields_runOn ((SignatureReader.meets_type _).imp fun _ _ ht => ht.storable)

namespace ModuleTables

variable (m : ModuleTables)

lemma yields_typeDefNames (rid : ℕ) :
    Yields (m.typeDefNames rid) (fun _ => True) LookupFault := by
  rw [typeDefNames]
  cases m.typeDefs.get? rid with
  | none => exact .missingTypeDef rid
  | some row =>
    refine yields_bind (m.strings.yields_get _) fun _ _ => ?_
    exact yields_bind (m.strings.yields_get _) fun _ _ => trivial

lemma yields_typeRefNames (rid : ℕ) :
    Yields (m.typeRefNames rid) (fun _ => True) LookupFault := by
  rw [typeRefNames]
  cases m.typeRefs.get? rid with
  | none => exact .missingTypeRef rid
  | some row =>
    refine yields_bind (m.strings.yields_get _) fun _ _ => ?_
    exact yields_bind (m.strings.yields_get _) fun _ _ => trivial

lemma yields_tokenNames? (token : Token) :
    Yields (m.tokenNames? token) (fun _ => True) LookupFault := by
  rw [tokenNames?]
  split_ifs
  · exact yields_bind (m.yields_typeDefNames _) fun _ _ => trivial
  · exact yields_bind (m.yields_typeRefNames _) fun _ _ => trivial
  · trivial

end ModuleTables

/-- The name of a step fails only if the name of one of its nodes does. -/
lemma NameStep.yields_complete {step : NameStep} {name : NameNode → Except Fault TypeName}
    {fault : Fault → Prop} (h : ∀ x ∈ step.nodes, Yields (name x) (fun _ => True) fault) :
    Yields (step.complete name) (fun _ => True) fault := by
  cases step with
  | done known => trivial
  | form shape node => exact yields_bind (h node (List.mem_singleton_self node)) fun _ _ => trivial
  | instantiation typeNamespace base args => exact yields_bind (yields_mapM h) fun _ _ => trivial

namespace MetadataModule

variable (m : MetadataModule) (scope : GenericScope)

/-- What a token alone names can be instantiated, if it has a name. -/
lemma yields_instantiatedType (base : TypeSig) (args : List TypeSig) :
    Yields (m.instantiatedType base) (fun _ => True)
      (LookFault (.signature (.instantiation base args))) := by
  cases base with
  | classType token | valueType token =>
    refine yields_bind ((m.yields_tokenNames? token).imp_fault fun _ => .lookup) fun names _ => ?_
    cases names with
    | none => exact .instantiationOfToken token _ args
    | some names => trivial
  | _ =>
    refine .instantiationOfNonType ?_ args
    rintro ⟨token, h | h⟩ <;> cases h

/-- A look at a token leads to the signature of a constructed type or to an enclosing type, if it
leads anywhere. -/
lemma yields_lookAtToken (token : Token) :
    Yields (m.lookAtToken token) (fun step => ∀ y ∈ step.nodes, m.Follows (.token token) y)
      (LookFault (.token token)) := by
  have hstrings : ∀ index, Yields (m.strings.get index) (fun text => m.strings.get index = .ok text)
      (LookFault (.token token)) :=
    fun index => ((m.strings.yields_get index).imp_fault fun _ => .lookup).eq_ok
  rw [lookAtToken]
  split_ifs with hdef href hspec
  · cases hrow : m.typeDefs.get? token.row with
    | none => exact .danglingTypeDef token
    | some row =>
      refine yields_bind (hstrings _) fun typeNamespace hnamespace => ?_
      refine yields_bind (hstrings _) fun name hname => ?_
      cases hkeyword : hasKeyword typeNamespace name with
      | true =>
        rw [if_pos rfl]
        exact List.forall_mem_nil _
      | false =>
        rw [if_neg Bool.false_ne_true]
        cases hgenerics : m.typeGenerics[token.row]? with
        | some parameters => exact List.forall_mem_nil _
        | none =>
          cases houter : m.enclosing[token.row]? with
          | none => exact List.forall_mem_nil _
          | some outer =>
            simp only
            split_ifs with hvisibility
            · exact List.forall_mem_nil _
            · exact List.forall_mem_singleton.mpr (.enclosing hdef hrow hnamespace hname hkeyword
                hgenerics houter hvisibility)
  · refine yields_bind ((m.yields_typeRefNames token.row).imp_fault fun _ => .lookup) ?_
    exact fun _ _ => List.forall_mem_nil _
  · cases hrow : m.typeSpecs.get? token.row with
    | none => exact .danglingTypeSpec token
    | some row =>
      have hblobs := (m.blobs.yields_get row.signature).imp_fault fun _ => LookFault.signature hspec
      refine yields_bind hblobs.eq_ok fun blob hblob => ?_
      have hsigs := (TypeSig.yields_ofBlob blob).imp_fault fun _ => LookFault.signature hspec
      refine yields_bind hsigs.eq_ok fun sig hsig => ?_
      exact List.forall_mem_singleton.mpr (.typeSpec hspec hrow hblob hsig)
  · refine .typeToken ?_
    rintro (h | h | h)
    · exact hdef h
    · exact href h
    · exact hspec h

/-- **One step of naming** fails only with the faults of a look, and otherwise leads to nodes that
are followed. -/
lemma yields_look (x : NameNode) :
    Yields (m.look scope x) (fun step => ∀ y ∈ step.nodes, m.Follows x y) (LookFault x) := by
  cases x with
  | token token => exact m.yields_lookAtToken token
  | signature sig =>
    cases sig with
    | primitive p => exact List.forall_mem_nil _
    | classType token => exact List.forall_mem_singleton.mpr (.classType token)
    | valueType token => exact List.forall_mem_singleton.mpr (.valueType token)
    | typeParameter i => exact List.forall_mem_nil _
    | methodParameter i => exact List.forall_mem_nil _
    | vector element => exact List.forall_mem_singleton.mpr (.vector element)
    | array element rank => exact List.forall_mem_singleton.mpr (.array element rank)
    | byRef target => exact List.forall_mem_singleton.mpr (.byRef target)
    | pinned target => exact List.forall_mem_singleton.mpr (.pinned target)
    | pointer target => exact List.forall_mem_singleton.mpr (.pointer target)
    | functionPointer method => exact List.forall_mem_nil _
    | instantiation base args =>
      refine yields_bind (m.yields_instantiatedType base args) fun names _ => ?_
      exact List.forall_mem_map.mpr fun arg harg => .argument harg

variable {m} in
/-- **How naming fails.** Let `inv` say of nodes that they can be named within so many levels. If it
passes on to the nodes that are followed, with one level less, then a node of which it holds is
named, or fails as such nodes do.

**Proof sketch.** By induction on the levels. A step leads to nodes that are followed, for which one
level less is left. -/
lemma yields_nameWithin_of_inv (inv : ℕ → NameNode → Prop) {fault : Fault → Prop}
    (hzero : ∀ x, inv 0 x → fault .nesting)
    (hlook : ∀ levels x e, inv (levels + 1) x → LookFault x e → fault e)
    (hfollows : ∀ levels x y, inv (levels + 1) x → m.Follows x y → inv levels y)
    (levels : ℕ) {x : NameNode} (h : inv levels x) :
    Yields (m.nameWithin scope levels x) (fun _ => True) fault := by
  induction levels generalizing x with
  | zero =>
    rw [nameWithin_zero]
    exact hzero x h
  | succ levels ih =>
    rw [nameWithin_succ]
    refine yields_bind ((m.yields_look scope x).imp_fault fun e => hlook levels x e h) ?_
    intro step hstep
    exact NameStep.yields_complete fun y hy => ih (hfollows levels x y h (hstep y hy))

end MetadataModule

/-! ## What fits the format -/

lemma namesType_token_typeDef (row : ℕ) : (TableId.typeDef.token row).NamesType := by
  left
  rw [TableId.token, Token.table_ofParts]
  rfl

/-- The nodes that fit the format. -/
inductive NameNode.Fits : NameNode → Prop
  | signature {sig : TypeSig} (h : sig.Storable) : Fits (.signature sig)
  | token {token : Token} (h : token.NamesType) : Fits (.token token)

namespace NameNode.Fits

variable {m : MetadataModule} {x y : NameNode} {e : Fault}

/-- **What fits the format leads to what fits the format.** -/
lemma of_follows (h : x.Fits) (hfollows : m.Follows x y) : y.Fits := by
  cases h with
  | token h =>
    cases hfollows with
    | typeSpec _ _ _ hsig => exact .signature ((TypeSig.yields_ofBlob _).of_eq_ok hsig)
    | enclosing => exact .token (namesType_token_typeDef _)
  | signature h =>
    cases h with
    | primitive | typeParameter | methodParameter | functionPointer => cases hfollows
    | classType h | valueType h =>
      cases hfollows
      exact .token h
    | vector h | array h | byRef h | pinned h | pointer h =>
      cases hfollows
      exact .signature h
    | instantiation _ _ _ hargs =>
      cases hfollows with
      | argument harg => exact .signature (hargs _ harg)

/-- A look at what fits the format fails only with the faults of naming. -/
lemma namingFault (h : x.Fits) (he : LookFault x e) : NamingFault e := by
  cases he with
  | lookup he => exact he.namingFault
  | danglingTypeDef token => exact .danglingTypeDef token
  | danglingTypeSpec token => exact .danglingTypeSpec token
  | signature _ he => exact .signature he
  | typeToken hnot =>
    cases h with
    | token htoken => exact absurd htoken hnot
  | instantiationOfToken token => exact .instantiationOfToken token
  | instantiationOfNonType hnot =>
    cases h with
    | signature h =>
      cases h with
      | instantiation hnamed _ _ _ => exact absurd hnamed hnot

end NameNode.Fits

/-- **A node that fits the format** is named, or fails with a fault of naming. -/
lemma MetadataModule.yields_nameWithin (m : MetadataModule) (scope : GenericScope) (levels : ℕ)
    {x : NameNode} (h : x.Fits) :
    Yields (m.nameWithin scope levels x) (fun _ => True) NamingFault :=
  yields_nameWithin_of_inv scope (fun _ x => x.Fits) (fun _ _ => .signature .nesting)
    (fun _ _ _ hx => hx.namingFault) (fun _ _ _ hx => hx.of_follows) levels h

/-! ## Accepted signatures -/

/-- No module says of a type, at any level and in any scope, that it makes no sense. -/
def TypeSig.IsSensible (t : TypeSig) : Prop :=
  ∀ (m : MetadataModule) (scope : GenericScope) (levels : ℕ) (e : Fault),
    m.signatureNameWithin scope levels t = .error e → ¬e.IsSenseless

lemma TypeSig.Storable.isSensible {t : TypeSig} (h : t.Storable) : t.IsSensible := by
  intro m scope levels e he
  exact ((m.yields_nameWithin scope levels (.signature h)).of_eq_error he).not_isSenseless

namespace SignatureReader

/-- **Accepted signatures make sense.** Whatever bytes the signature of a type, of a field or of a
method is read from, it fits the format: what is instantiated is named by a token, tokens are those
of types, numbers have at most 29 bits. Its types are nested less deep than the limit, and they are
no more than the bytes that were read. And whatever module it is named in, also through constructed
types, no type in it is said to make no sense.

**Proof sketch.** The reader was walked through once, for everything it accepts. What fits the
format leads to what fits the format when it is named, constructed types included, because their
signatures were accepted by the same reader. -/
theorem accepted_signatures (blob : ByteArray) :
    (∀ r ∈ [type, field], ∀ t s, r.run (.ofBlob blob) = .ok t s →
      t.Storable ∧ t.nesting < nestingLimit ∧ t.size ≤ s.cursor.pos ∧ t.IsSensible) ∧
    ∀ m s, method.run (.ofBlob blob) = .ok m s →
      m.Storable ∧ m.nesting < nestingLimit ∧ m.size ≤ s.cursor.pos ∧
        ∀ p ∈ m.returns :: m.params, p.type.IsSensible := by
  have hlevels : levelsAt 0 + 1 = nestingLimit := by decide
  have hpos : (SignatureCursor.ofBlob blob).cursor.pos = 0 := rfl
  have htype : ∀ {t : TypeSig} {s : SignatureCursor}, t.Good (levelsAt 0) →
      (SignatureCursor.ofBlob blob).cursor.Passed s.cursor t.size →
      t.Storable ∧ t.nesting < nestingLimit ∧ t.size ≤ s.cursor.pos ∧ t.IsSensible := by
    intro t s ht hpassed
    have hnesting := ht.nesting
    have hsize := hpassed.pos
    exact ⟨ht.storable, by omega, by omega, ht.storable.isSensible⟩
  refine ⟨fun r hr t s hrun => ?_, fun m s hrun => ?_⟩
  · simp only [List.mem_cons, List.not_mem_nil, or_false] at hr
    rcases hr with rfl | rfl
    · have ht := (meets_type _).of_run_eq_ok hrun
      exact htype ⟨ht.storable, ht.nesting⟩ ht.passed
    · obtain ⟨ht, hpassed⟩ := (meets_field _).of_run_eq_ok hrun
      exact htype ht hpassed
  · have hm := (meets_method _).of_run_eq_ok hrun
    have hnesting := hm.nesting
    have hsize := hm.passed.pos
    refine ⟨hm.storable, by omega, by omega, List.forall_mem_cons.mpr ⟨?_, fun p hp => ?_⟩⟩
    · exact hm.storable.returns.isSensible
    · exact (hm.storable.params p hp).isSensible

/-- The law for a method with an instantiation and a function pointer in it. -/
theorem accepted_signatures_arrayFactory :
    ∃ s, method.run (.ofBlob ⟨(arrayFactoryBytes ++ []).toArray⟩) = .ok arrayFactory s ∧
      arrayFactory.Storable ∧ arrayFactory.nesting < nestingLimit ∧
      arrayFactory.size ≤ s.cursor.pos ∧
      ∀ p ∈ arrayFactory.returns :: arrayFactory.params, p.type.IsSensible := by
  have hstorable := storable_arrayFactory
  have hdecodes : method.Decodes arrayFactory.nesting arrayFactoryBytes arrayFactory :=
    (answers_methodOf hstorable.fits (answersBare_type hstorable.returns)
      (fun p hp => answersBare_type (hstorable.params p hp)) written_arrayFactoryBytes).decodes
  have hrun := (hdecodes []).1 (by decide)
  exact ⟨_, hrun, (accepted_signatures _).2 arrayFactory _ hrun⟩

end SignatureReader

end TypeInventory
