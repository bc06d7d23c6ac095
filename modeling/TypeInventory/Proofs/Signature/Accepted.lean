import TypeInventory.Proofs.Signature.Encoding

set_option relaxedAutoImplicit false
set_option autoImplicit false

/-!
# What is accepted as a signature

The reader of signatures meets arbitrary bytes. It either refuses them, for one of few reasons, or
gives a signature that fits the format: whatever it accepts could have been written. Moreover no
type in it is nested deeper than the reader counts, and each type in it was paid for by a byte of
its own.

All of this is proved in one walk over the reader. `Meets` states at once what holds of a value and
of an error, so that each part of the reader has one law, and the laws compose.

## Main definitions

* `Meets` — what holds when a computation succeeds, and when it fails.
* `Cursor.Passed` — at least so many bytes lie between two cursors.
* `SignatureFault` — the faults for which bytes are refused as a signature.
* `TypeSig.size`, `MethodSig.size` — the number of types in a signature.
* `TypeSig.Accepted`, `ParamSig.Accepted`, `MethodSig.Accepted` — what holds of what is accepted.

## Main results

* `meets_bind`, `meets_collectWhile` — computations in a row.
* `SignatureReader.meets_methodOf`, `SignatureReader.meets_ofKind` — methods and types, around any
  reader of the types inside them.
* `SignatureReader.meets_typeWithin` — types, at any depth.
* `SignatureReader.meets_type`, `SignatureReader.meets_field`, `SignatureReader.meets_method` — what
  is read from a whole blob.
-/

namespace TypeInventory

/-! ## Outcomes -/

section Outcomes

variable {ε σ α β : Type}

/-- From state `s`, a computation gives a value and a state as `post` says, or it fails with an
error as `fault` says. -/
def Meets (x : EStateM ε σ α) (s : σ) (post : α → σ → Prop) (fault : ε → Prop) : Prop :=
  match x.run s with
  | .ok a s' => post a s'
  | .error e _ => fault e

variable {x : EStateM ε σ α} {s s' : σ} {a : α} {e : ε} {post : α → σ → Prop} {fault : ε → Prop}

/-- What holds of every value holds of the one that is given. -/
lemma Meets.of_run_eq_ok (h : Meets x s post fault) (hrun : x.run s = .ok a s') : post a s' := by
  rwa [Meets, hrun] at h

/-- What holds of every error holds of the one that stops the computation. -/
lemma Meets.of_run_eq_error (h : Meets x s post fault) (hrun : x.run s = .error e s') :
    fault e := by
  rwa [Meets, hrun] at h

/-- Less may be said of a value. -/
lemma Meets.imp {post' : α → σ → Prop} (h : Meets x s post fault)
    (hpost : ∀ a s', post a s' → post' a s') : Meets x s post' fault := by
  unfold Meets at h ⊢
  split at h
  · exact hpost _ _ h
  · exact h

/-- A value leaves the state as it is. -/
lemma meets_pure (h : post a s) : Meets (pure a) s post fault :=
  h

/-- An error stops the computation. -/
lemma meets_throw (h : fault e) : Meets (throw e : EStateM ε σ α) s post fault :=
  h

/-- Two computations in a row: the second one starts where the first one stops. -/
lemma meets_bind {f : α → EStateM ε σ β} {post' : β → σ → Prop} (hx : Meets x s post fault)
    (hf : ∀ a s', post a s' → Meets (f a) s' post' fault) : Meets (x >>= f) s post' fault := by
  unfold Meets at hx
  rw [Meets, EStateM.run_bind]
  cases hrun : x.run s with
  | ok a s' =>
    rw [hrun] at hx
    exact hf a s' hx
  | error e s' =>
    rw [hrun] at hx
    exact hx

/-- Behind an error nothing is computed. -/
lemma meets_throw_bind {f : β → EStateM ε σ α} (h : fault e) :
    Meets ((throw e : EStateM ε σ β) >>= f) s post fault :=
  h

/-- The state is looked at. -/
lemma meets_get_bind {f : σ → EStateM ε σ α} (h : Meets (f s) s post fault) :
    Meets (get >>= f) s post fault :=
  h

/-- A value that is built from another one. -/
lemma meets_map {g : α → β} {post' : β → σ → Prop} (hx : Meets x s post fault)
    (hg : ∀ a s', post a s' → post' (g a) s') : Meets (g <$> x) s post' fault := by
  rw [map_eq_pure_bind]
  exact meets_bind hx fun a s' h => meets_pure (hg a s' h)

/-- **A computation that is run at most `n` times** keeps what each run keeps about the values so
far and the state.

**Proof sketch.** By induction on `n`. A run that gives nothing is the last one; otherwise its value
joins those so far. -/
lemma meets_collectWhile {step : EStateM ε σ (Option α)} (inv : List α → σ → Prop)
    (hstep : ∀ done s, inv done s →
      Meets step s (fun o s' => inv (done ++ o.toList) s') fault) (n : ℕ) :
    ∀ done s, inv done s →
      Meets (collectWhile step n) s (fun as s' => as.length ≤ n ∧ inv (done ++ as) s') fault := by
  induction n with
  | zero =>
    intro done s h
    refine meets_pure ⟨Nat.le_refl 0, ?_⟩
    rwa [List.reverse_nil, List.append_nil]
  | succ n ih =>
    intro done s h
    rw [collectWhile_succ]
    refine meets_bind (hstep done s h) fun o s' ho => ?_
    cases o with
    | none => exact meets_pure ⟨Nat.zero_le _, ho⟩
    | some a =>
      refine meets_map (ih (done ++ [a]) s' ho) fun as s'' has => ⟨?_, ?_⟩
      · exact Nat.succ_le_succ has.1
      · rw [← List.append_cons done a as] at has
        exact has.2

/-- A computation that is run exactly `n` times keeps what each run keeps. -/
lemma meets_collect {step : EStateM ε σ α} (inv : List α → σ → Prop)
    (hstep : ∀ done s, inv done s → Meets step s (fun a s' => inv (done ++ [a]) s') fault)
    {s : σ} (h : inv [] s) (n : ℕ) :
    Meets (collect step n) s (fun as s' => as.length ≤ n ∧ inv as s') fault :=
  meets_collectWhile inv
    (fun done s hdone => meets_map (g := some) (hstep done s hdone) fun _ _ h => h) n [] s h

end Outcomes

/-! ## Bytes that are passed over -/

/-- From the first cursor to the second one, at least `n` bytes are passed over. -/
structure Cursor.Passed (c c' : Cursor) (n : ℕ) : Prop where
  /-- The bytes stay as they are. -/
  data : c'.data = c.data
  /-- The cursor moves forward. -/
  pos : c.pos + n ≤ c'.pos

namespace Cursor.Passed

variable {c c' c'' : Cursor} {m n : ℕ}

lemma refl (c : Cursor) : c.Passed c 0 :=
  ⟨rfl, Nat.le_refl _⟩

lemma trans (h : c.Passed c' m) (h' : c'.Passed c'' n) : c.Passed c'' (m + n) := by
  have hfirst := h.pos
  have hsecond := h'.pos
  exact ⟨h'.data.trans h.data, by omega⟩

/-- Fewer bytes are passed over as well. -/
lemma of_le (h : c.Passed c' m) (hle : n ≤ m) : c.Passed c' n := by
  have hpos := h.pos
  exact ⟨h.data, by omega⟩

/-- Bytes that are passed over are no longer left. -/
lemma remaining_le (h : c.Passed c' n) : c'.remaining ≤ c.remaining - n := by
  have hpos := h.pos
  rw [Cursor.remaining, Cursor.remaining, h.data]
  omega

end Cursor.Passed

/-- The faults for which bytes are refused as a signature. -/
inductive SignatureFault : Fault → Prop
  | outOfBounds : SignatureFault .outOfBounds
  | nesting : SignatureFault .nesting
  | compressedLead (byte : UInt8) : SignatureFault (.malformed (.compressedLead byte))
  | compressedToken (value : ℕ) : SignatureFault (.malformed (.compressedToken value))
  | callingConvention (byte : UInt8) : SignatureFault (.malformed (.callingConvention byte))
  | fieldHead (byte : UInt8) : SignatureFault (.malformed (.fieldHead byte))
  | instantiationHead (byte : UInt8) : SignatureFault (.malformed (.instantiationHead byte))
  | elementType (byte : UInt8) : SignatureFault (.malformed (.elementType byte))

/-- The token of a decoded reference to a type names a type. -/
lemma CodedIndex.namesType_of_decode? {value : ℕ} {i : CodedIndex}
    (h : decode? .typeDefOrRef value = some i) : i.token.NamesType := by
  obtain ⟨table, htable, rfl⟩ := Option.map_eq_some_iff.mp h
  have hmem : table ∈ [TableId.typeDef, .typeRef, .typeSpec] := List.mem_of_getElem? htable
  simp only [List.mem_cons, List.not_mem_nil, or_false] at hmem
  unfold Token.NamesType CodedIndex.token TableId.token
  simp only [Token.table_ofParts]
  rcases hmem with rfl | rfl | rfl <;> decide

namespace Reader

/-- A byte is passed over. -/
lemma meets_byte (c : Cursor) :
    Meets byte c (fun b c' => c.rest.head? = some b ∧ c.Passed c' 1) SignatureFault := by
  rw [Meets, run_byte_eq_dite]
  split_ifs with hpos
  · refine ⟨?_, rfl, Nat.le_refl _⟩
    rw [Cursor.rest, List.head?_drop, Array.getElem?_toList]
    exact Array.getElem?_eq_getElem hpos
  · exact .outOfBounds

/-- A byte that is looked at is next, and stays there. -/
lemma meets_peek (c : Cursor) :
    Meets peek c (fun b c' => c.rest.head? = some b ∧ c' = c) SignatureFault := by
  rw [Meets, run_peek_eq_dite]
  split_ifs with hpos
  · refine ⟨?_, rfl⟩
    rw [Cursor.rest, List.head?_drop, Array.getElem?_toList]
    exact Array.getElem?_eq_getElem hpos
  · exact .outOfBounds

lemma meets_skip_one (c : Cursor) :
    Meets (skip 1) c (fun _ c' => c.Passed c' 1) SignatureFault := by
  rw [Meets, run_skip_eq_ite]
  split_ifs
  · exact ⟨rfl, Nat.le_refl _⟩
  · exact .outOfBounds

/-- A compressed integer has at least one byte and at most 29 bits. -/
lemma meets_compressed (c : Cursor) :
    Meets compressed c (fun n c' => n < 2 ^ 29 ∧ c.Passed c' 1) SignatureFault := by
  refine meets_bind (meets_byte c) fun lead c₁ ⟨_, hlead⟩ => ?_
  simp only
  split_ifs with hone htwo hfour
  · exact meets_pure ⟨by omega, hlead⟩
  · refine meets_bind (meets_byte c₁) fun second c₂ ⟨_, hpassed⟩ => meets_pure ⟨?_, ?_⟩
    · have hsecond := second.toNat_lt
      omega
    · exact (hlead.trans hpassed).of_le (by decide)
  · refine meets_bind (meets_byte c₁) fun second c₂ ⟨_, h₂⟩ => ?_
    refine meets_bind (meets_byte c₂) fun third c₃ ⟨_, h₃⟩ => ?_
    refine meets_bind (meets_byte c₃) fun fourth c₄ ⟨_, h₄⟩ => meets_pure ⟨?_, ?_⟩
    · have hsecond := second.toNat_lt
      have hthird := third.toNat_lt
      have hfourth := fourth.toNat_lt
      omega
    · exact (hlead.trans (h₂.trans (h₃.trans h₄))).of_le (by decide)
  · exact meets_throw (.compressedLead lead)

/-- A token in a blob names a type. -/
lemma meets_compressedToken (c : Cursor) :
    Meets compressedToken c (fun t c' => t.NamesType ∧ c.Passed c' 1) SignatureFault := by
  refine meets_bind (meets_compressed c) fun value c' ⟨_, hpassed⟩ => ?_
  cases hdecode : CodedIndex.decode? .typeDefOrRef value with
  | none => exact meets_throw (.compressedToken value)
  | some i => exact meets_pure ⟨CodedIndex.namesType_of_decode? hdecode, hpassed⟩

end Reader

/-! ## First bytes -/

/-- A built-in type is found by its own byte alone. -/
lemma PrimitiveType.code_of_ofCode? {b : UInt8} {p : PrimitiveType} (h : ofCode? b = some p) :
    p.code = b := by
  unfold ofCode? at h
  split at h <;> cases h
  all_goals exact UInt8.toNat_inj.mp (Eq.symm ‹_›)

/-- A kind is announced by its own byte alone. -/
lemma ElementKind.code_of_ofCode? {b : UInt8} {kind : ElementKind} (h : ofCode? b = some kind) :
    kind.code = b := by
  unfold ofCode? at h
  split at h <;> cases h
  all_goals exact UInt8.toNat_inj.mp (Eq.symm ‹_›)

/-! ## The number of types -/

namespace TypeSig

mutual

/-- The number of types in a type, itself included. The base of an instantiation and the types in a
method count. -/
def size : TypeSig → ℕ
  | .primitive _ => 1
  | .pointer t => t.size + 1
  | .byRef t => t.size + 1
  | .valueType _ => 1
  | .classType _ => 1
  | .typeParameter _ => 1
  | .methodParameter _ => 1
  | .array t _ => t.size + 1
  | .vector t => t.size + 1
  | .instantiation base args => base.size + sizeOfList args + 1
  | .functionPointer m => sizeOfMethod m + 1
  | .pinned t => t.size + 1

/-- The number of types in a list of types. -/
def sizeOfList : List TypeSig → ℕ
  | [] => 0
  | t :: ts => t.size + sizeOfList ts

/-- The number of types in the type of a parameter. -/
def sizeOfParam : ParamSig → ℕ
  | ⟨_, t⟩ => t.size

/-- The number of types in the types of parameters. -/
def sizeOfParams : List ParamSig → ℕ
  | [] => 0
  | p :: ps => sizeOfParam p + sizeOfParams ps

/-- The number of types in a method. -/
def sizeOfMethod : MethodSig → ℕ
  | ⟨_, _, _, _, returns, params⟩ => sizeOfParam returns + sizeOfParams params

end

lemma sizeOfList_eq (ts : List TypeSig) : sizeOfList ts = (ts.map size).sum := by
  induction ts with
  | nil => rfl
  | cons t ts ih => rw [sizeOfList, ih, List.map_cons, List.sum_cons]

lemma sizeOfParams_eq (ps : List ParamSig) :
    sizeOfParams ps = (ps.map fun p => p.type.size).sum := by
  induction ps with
  | nil => rfl
  | cons p ps ih => rw [sizeOfParams, sizeOfParam, ih, List.map_cons, List.sum_cons]

lemma size_instantiation (base : TypeSig) (args : List TypeSig) :
    (instantiation base args).size = base.size + (args.map size).sum + 1 := by
  rw [size, sizeOfList_eq]

end TypeSig

/-- The number of types in a method. -/
def MethodSig.size (m : MethodSig) : ℕ :=
  m.returns.type.size + (m.params.map fun p => p.type.size).sum

lemma TypeSig.size_functionPointer (m : MethodSig) : (functionPointer m).size = m.size + 1 := by
  rw [size, sizeOfMethod, sizeOfParam, sizeOfParams_eq, MethodSig.size]

/-! ## Accepted signatures -/

/-- Only a type that a token alone names starts with the byte of such a type. -/
lemma TypeSig.isNamed_of_headCode {t : TypeSig}
    (h : t.headCode = ElementKind.classType.code ∨ t.headCode = ElementKind.valueType.code) :
    t.IsNamed := by
  cases t with
  | classType token => exact ⟨token, .inl rfl⟩
  | valueType token => exact ⟨token, .inr rfl⟩
  | primitive p => cases p <;> exact absurd h (by decide)
  | _ => exact absurd h (by rw [headCode]; decide)

/-- A byte that starts a modifier. -/
def StartsModifier (b : UInt8) : Prop :=
  b = requiredModifier ∨ b = optionalModifier

instance (b : UInt8) : Decidable (StartsModifier b) :=
  inferInstanceAs (Decidable (_ ∨ _))

/-- A type that is accepted between two cursors, at most `levels` levels deep. -/
structure TypeSig.Accepted (t : TypeSig) (levels : ℕ) (c c' : Cursor) : Prop where
  /-- It fits the format. -/
  storable : t.Storable
  /-- It is not nested too deep. -/
  nesting : t.nesting ≤ levels
  /-- There is a byte for each type in it. -/
  passed : c.Passed c' t.size
  /-- It is what its first byte announces, if there are no modifiers before it. -/
  head : ∀ b, c.rest.head? = some b → ¬StartsModifier b → t.headCode = b

/-- A type that is accepted behind the byte that announces its kind. The types inside it are at most
`levels` levels deep. -/
structure TypeSig.Announced (t : TypeSig) (kind : ElementKind) (levels : ℕ) (c c' : Cursor) :
    Prop where
  /-- It fits the format. -/
  storable : t.Storable
  /-- It is not nested too deep. -/
  nesting : t.nesting ≤ levels + 1
  /-- There is a byte for each type in it. -/
  passed : c.Passed c' t.size
  /-- It is what was announced. -/
  head : t.headCode = kind.code

/-- What has no types inside it takes more than the byte of its kind. -/
lemma TypeSig.Announced.leaf {t : TypeSig} {kind : ElementKind} {levels n : ℕ} {c c' : Cursor}
    (hpassed : c.Passed c' (n + 1)) (hstorable : t.Storable) (hnesting : t.nesting = 1)
    (hsize : t.size = 1) (hhead : t.headCode = kind.code) : t.Announced kind levels c c' := by
  refine ⟨hstorable, ?_, ?_, hhead⟩
  · omega
  · rw [hsize]
    exact hpassed.of_le (by omega)

/-- What is made of one type is accepted where the byte of its kind stands before this type, and
perhaps more stands behind it. -/
lemma TypeSig.Accepted.announced {t t' : TypeSig} {kind : ElementKind} {levels : ℕ}
    {c₀ c c' c'' : Cursor} (h : t.Accepted levels c c') (hbefore : c₀.Passed c 1)
    (hbehind : c'.Passed c'' 0) (hstorable : t'.Storable) (hnesting : t'.nesting = t.nesting + 1)
    (hsize : t'.size = t.size + 1) (hhead : t'.headCode = kind.code) :
    t'.Announced kind levels c₀ c'' := by
  have hlevels := h.nesting
  refine ⟨hstorable, ?_, ?_, hhead⟩
  · omega
  · rw [hsize]
    exact (hbefore.trans (h.passed.trans hbehind)).of_le (by omega)

/-- A type as it should be, at most `levels` levels deep. -/
structure TypeSig.Good (levels : ℕ) (t : TypeSig) : Prop where
  /-- It fits the format. -/
  storable : t.Storable
  /-- It is not nested too deep. -/
  nesting : t.nesting ≤ levels

/-- A parameter or return value as it should be, at most `levels` levels deep. -/
structure ParamSig.Good (levels : ℕ) (p : ParamSig) : Prop where
  /-- Its type fits the format. -/
  storable : p.type.Storable
  /-- Its type is not nested too deep. -/
  nesting : p.type.nesting ≤ levels
  /-- If it is not passed by reference, its type is no reference either. -/
  isByRef : p.byRef = false → ¬p.type.IsByRef

/-- A parameter or return value that is accepted between two cursors. -/
structure ParamSig.Accepted (p : ParamSig) (levels : ℕ) (c c' : Cursor) : Prop where
  /-- It is as it should be. -/
  good : p.Good levels
  /-- There is a byte for each type in it. -/
  passed : c.Passed c' p.type.size

/-- A method that is accepted between two cursors. -/
structure MethodSig.Accepted (m : MethodSig) (levels : ℕ) (c c' : Cursor) : Prop where
  /-- It fits the format. -/
  storable : m.Storable
  /-- No type in it is nested too deep. -/
  nesting : m.nesting ≤ levels
  /-- There is a byte for each type in it. -/
  passed : c.Passed c' m.size

lemma MethodSig.Accepted.of_passed {m : MethodSig} {levels n : ℕ} {c c' c'' : Cursor}
    (h : m.Accepted levels c' c'') (hpassed : c.Passed c' n) : m.Accepted levels c c'' :=
  ⟨h.storable, h.nesting, (hpassed.trans h.passed).of_le (Nat.le_add_left _ _)⟩

/-- Members of a list that are accepted one by one between two cursors. -/
structure AcceptedAll {α : Type} (good : α → Prop) (size : α → ℕ) (as : List α) (c c' : Cursor) :
    Prop where
  /-- Each of them is as it should be. -/
  each : ∀ a ∈ as, good a
  /-- There are bytes for all of them. -/
  passed : c.Passed c' (as.map size).sum

namespace AcceptedAll

variable {α : Type} {good : α → Prop} {size : α → ℕ} {as : List α} {a : α} {c c' c'' : Cursor}

lemma nil (h : c.Passed c' 0) : AcceptedAll good size [] c c' :=
  ⟨by simp, h⟩

/-- One more is accepted behind those that were accepted so far. -/
lemma concat (h : AcceptedAll good size as c c') (ha : good a) (hpassed : c'.Passed c'' (size a)) :
    AcceptedAll good size (as ++ [a]) c c'' := by
  refine ⟨?_, ?_⟩
  · rw [List.forall_mem_append, List.forall_mem_singleton]
    exact ⟨h.each, ha⟩
  · rw [List.map_append, List.sum_append, List.map_singleton, List.sum_singleton]
    exact h.passed.trans hpassed

end AcceptedAll

/-- Nothing in a list exceeds what none of its members exceeds. -/
lemma foldr_max_le {α : Type} {f : α → ℕ} {bound : ℕ} {as : List α} (h : ∀ a ∈ as, f a ≤ bound) :
    (as.map f).foldr max 0 ≤ bound := by
  induction as with
  | nil => exact Nat.zero_le _
  | cons a as ih =>
    rw [List.forall_mem_cons] at h
    rw [List.map_cons, List.foldr_cons]
    exact Nat.max_le.mpr ⟨h.1, ih h.2⟩

namespace SignatureReader

variable {α : Type} {levels : ℕ} {type : SignatureReader TypeSig}

/-- What holds of a reader of bytes holds of it in a signature. -/
lemma meets_ofReader {r : Reader α} {s : SignatureCursor} {post : α → Cursor → Prop}
    {fault : Fault → Prop} (h : Meets r s.cursor post fault) :
    Meets (ofReader r) s (fun a s' => post a s'.cursor) fault := by
  have hlift : (ofReader r).run s = ofReader r s := rfl
  unfold Meets at h ⊢
  rw [hlift, ofReader]
  cases hrun : r.run s.cursor with
  | ok a c => rwa [hrun] at h
  | error e c => rwa [hrun] at h

lemma meets_liftM {r : Reader α} {s : SignatureCursor} {post : α → Cursor → Prop}
    {fault : Fault → Prop} (h : Meets r s.cursor post fault) :
    Meets (liftM r : SignatureReader α) s (fun a s' => post a s'.cursor) fault :=
  meets_ofReader h

/-! ## Modifiers -/

/-- At most `n` modifiers are passed over. If there are no more bytes than that, none is next behind
them; and nothing is passed over if none is next before them.

**Proof sketch.** By induction on `n`. A modifier takes a byte at least, so that behind it there are
no more bytes than modifiers that may still come. -/
lemma meets_modifiersUpTo (n : ℕ) :
    ∀ c : Cursor, c.remaining ≤ n →
      Meets (modifiersUpTo n) c (fun _ c' => c.Passed c' 0 ∧
        (∀ b, c'.rest.head? = some b → ¬StartsModifier b) ∧
        ((∀ b, c.rest.head? = some b → ¬StartsModifier b) → c' = c)) SignatureFault := by
  induction n with
  | zero =>
    intro c hle
    refine meets_pure ⟨.refl c, fun b hb => ?_, fun _ => rfl⟩
    rw [Cursor.remaining_eq, Nat.le_zero, List.length_eq_zero_iff] at hle
    rw [hle] at hb
    cases hb
  | succ n ih =>
    intro c hle
    rw [modifiersUpTo]
    apply meets_get_bind
    split_ifs with hmore
    · refine meets_bind (Reader.meets_peek _) ?_
      rintro b _ ⟨hhead, rfl⟩
      split_ifs with hb
      · refine meets_bind (Reader.meets_skip_one _) fun _ c₁ hmark => ?_
        refine meets_bind (Reader.meets_compressedToken c₁) fun _ c₂ ⟨_, htoken⟩ => ?_
        have hpassed := hmark.trans htoken
        have hleft := hpassed.remaining_le
        refine (ih c₂ (by omega)).imp fun _ c₃ ⟨hrest, hnext, _⟩ => ⟨?_, hnext, fun hnone => ?_⟩
        · exact (hpassed.trans hrest).of_le (Nat.zero_le _)
        · exact absurd hb (hnone b hhead)
      · refine meets_pure ⟨.refl _, fun b' hb' => ?_, fun _ => rfl⟩
        rw [hhead, Option.some.injEq] at hb'
        rwa [← hb']
    · refine meets_pure ⟨.refl _, fun b hb => ?_, fun _ => rfl⟩
      obtain ⟨suffix, hrest⟩ := List.head?_eq_some_iff.mp hb
      obtain ⟨hpos, -⟩ := Cursor.exists_of_rest_cons hrest
      exact absurd (decide_eq_true hpos) hmore

/-- All modifiers are passed over. -/
lemma meets_modifiers (c : Cursor) :
    Meets modifiers c (fun _ c' => c.Passed c' 0 ∧
      (∀ b, c'.rest.head? = some b → ¬StartsModifier b) ∧
      ((∀ b, c.rest.head? = some b → ¬StartsModifier b) → c' = c)) SignatureFault := by
  rw [modifiers]
  exact meets_get_bind (meets_modifiersUpTo _ _ (Nat.le_refl _))

/-! ## Parameters and methods -/

section Shapes

-- What is said about parameters and methods holds around any reader of the types inside them.
variable (htype : ∀ s, Meets type s (fun t s' => t.Accepted levels s.cursor s'.cursor)
  SignatureFault)

include htype

/-- A parameter. Its type is read behind all modifiers and behind the mark of a reference, so that
the type of one that is not passed by reference does not start with this mark. -/
lemma meets_param (s : SignatureCursor) :
    Meets (param type) s (fun p s' => ParamSig.Accepted p levels s.cursor s'.cursor)
      SignatureFault := by
  rw [param]
  refine meets_bind (meets_liftM (meets_modifiers _)) fun _ s₁ ⟨hmodifiers, hnext, _⟩ => ?_
  refine meets_bind (meets_liftM (Reader.meets_peek _)) fun b s₂ ⟨hhead, hstay⟩ => ?_
  split_ifs with hb
  · refine meets_bind (meets_liftM (Reader.meets_skip_one _)) fun _ s₃ hmark => ?_
    refine meets_bind (htype s₃) fun t s₄ ht =>
      meets_pure ⟨⟨ht.storable, ht.nesting, fun h => Bool.noConfusion h⟩, ?_⟩
    rw [hstay] at hmark
    exact (hmodifiers.trans (hmark.trans ht.passed)).of_le (by simp only; omega)
  · refine meets_bind (htype s₂) fun t s₃ ht =>
      meets_pure ⟨⟨ht.storable, ht.nesting, ?_⟩, ?_⟩
    · rintro - ⟨target, rfl⟩
      rw [← hstay] at hhead hnext
      exact hb (ht.head b hhead (hnext b hhead)).symm
    · have hpassed := ht.passed
      rw [hstay] at hpassed
      exact (hmodifiers.trans hpassed).of_le (by simp only; omega)

/-- A further parameter, if there is one, is accepted behind those so far. -/
lemma meets_paramOrEnd {c : Cursor} {done : List ParamSig} {s : SignatureCursor}
    (h : AcceptedAll (ParamSig.Good levels) (fun p => p.type.size) done c s.cursor) :
    Meets (paramOrEnd type) s (fun o s' => AcceptedAll (ParamSig.Good levels)
      (fun p => p.type.size) (done ++ o.toList) c s'.cursor) SignatureFault := by
  rw [paramOrEnd]
  refine meets_bind (meets_liftM (Reader.meets_peek _)) fun b s₁ ⟨_, hstay⟩ => ?_
  rw [← hstay] at h
  split_ifs with hb
  · refine meets_pure ?_
    rwa [Option.toList_none, List.append_nil]
  · exact meets_bind (meets_param htype s₁) fun p s₂ hp => meets_pure (h.concat hp.good hp.passed)

lemma meets_collectParams (count : ℕ) (s : SignatureCursor) :
    Meets (collectWhile (paramOrEnd type) count) s (fun params s' => params.length ≤ count ∧
      AcceptedAll (ParamSig.Good levels) (fun p => p.type.size) params s.cursor s'.cursor)
      SignatureFault :=
  meets_collectWhile
    (fun done s' =>
      AcceptedAll (ParamSig.Good levels) (fun p => p.type.size) done s.cursor s'.cursor)
    (fun _ _ h => meets_paramOrEnd htype h) count [] s (.nil (.refl _))

/-- A method, behind its calling convention and the number of its generic parameters. -/
lemma meets_params {hasThis explicitThis vararg : Bool} {genericCount : ℕ}
    (hgeneric : genericCount < 2 ^ 29) (s : SignatureCursor) :
    Meets (do
      let count ← Reader.compressed
      let returns ← param type
      let params ← collectWhile (paramOrEnd type) count
      return ⟨hasThis, explicitThis, vararg, genericCount, returns, params⟩ :
        SignatureReader MethodSig) s
      (fun m s' => MethodSig.Accepted m levels s.cursor s'.cursor) SignatureFault := by
  refine meets_bind (meets_liftM (Reader.meets_compressed _)) fun count s₁ ⟨hcount, h₁⟩ => ?_
  refine meets_bind (meets_param htype s₁) fun returns s₂ hreturns => ?_
  refine meets_bind (meets_collectParams htype count s₂) fun params s₃ ⟨hlength, hparams⟩ =>
    meets_pure ⟨⟨⟨?_, ?_, ?_, ?_⟩, ?_, ?_⟩, ?_, ?_⟩
  · exact hgeneric
  · exact Nat.lt_of_le_of_lt hlength hcount
  · exact hreturns.good.isByRef
  · exact fun p hp => (hparams.each p hp).isByRef
  · exact hreturns.good.storable
  · exact fun p hp => (hparams.each p hp).storable
  · exact Nat.max_le.mpr ⟨hreturns.good.nesting,
      foldr_max_le fun p hp => (hparams.each p hp).nesting⟩
  · exact (h₁.trans (hreturns.passed.trans hparams.passed)).of_le (Nat.le_add_left _ _)

/-- **An accepted method** fits the format, and has a byte for each type in it. -/
lemma meets_methodOf (s : SignatureCursor) :
    Meets (methodOf type) s (fun m s' => MethodSig.Accepted m levels s.cursor s'.cursor)
      SignatureFault := by
  rw [methodOf]
  refine meets_bind (meets_liftM (Reader.meets_byte _)) fun convention s₁ ⟨_, hconvention⟩ => ?_
  simp only
  by_cases hkind : 5 < convention.toNat % 16
  · rw [if_pos hkind]
    exact meets_throw_bind (.callingConvention convention)
  · rw [if_neg hkind]
    split_ifs
    · refine meets_bind (meets_ofReader (Reader.meets_compressed _)) fun count s₂ ⟨hlt, h₂⟩ => ?_
      exact (meets_params htype hlt s₂).imp fun m s₃ hm => hm.of_passed (hconvention.trans h₂)
    · exact (meets_params htype (by decide) s₁).imp fun m s₂ hm => hm.of_passed hconvention

end Shapes

/-! ## Types -/

/-- Numbers that are passed over are not kept. -/
lemma meets_collect_compressed (n : ℕ) (c : Cursor) :
    Meets (collect Reader.compressed n) c (fun _ c' => c.Passed c' 0) SignatureFault :=
  (meets_collect (fun _ c' => c.Passed c' 0)
    (fun _ c' h => (Reader.meets_compressed c').imp fun _ _ hn =>
      (h.trans hn.2).of_le (Nat.zero_le _)) (.refl c) n).imp fun _ _ h => h.2

/-- The rank of an array has at most 29 bits. -/
lemma meets_arrayShape (c : Cursor) :
    Meets arrayShape c (fun rank c' => rank < 2 ^ 29 ∧ c.Passed c' 0) SignatureFault := by
  rw [arrayShape]
  refine meets_bind (Reader.meets_compressed c) fun rank c₁ ⟨hrank, h₁⟩ => ?_
  refine meets_bind (Reader.meets_compressed c₁) fun sizeCount c₂ ⟨_, h₂⟩ => ?_
  refine meets_bind (meets_collect_compressed sizeCount c₂) fun _ c₃ h₃ => ?_
  refine meets_bind (Reader.meets_compressed c₃) fun boundCount c₄ ⟨_, h₄⟩ => ?_
  refine meets_bind (meets_collect_compressed boundCount c₄) fun _ c₅ h₅ => meets_pure ⟨hrank, ?_⟩
  exact (h₁.trans (h₂.trans (h₃.trans (h₄.trans h₅)))).of_le (Nat.zero_le _)

section Types

-- What is said about a type holds around any reader of the types inside it.
variable (htype : ∀ s, Meets type s (fun t s' => t.Accepted levels s.cursor s'.cursor)
  SignatureFault)

include htype

/-- The arguments of an instantiation. -/
lemma meets_arguments (count : ℕ) (s : SignatureCursor) :
    Meets (collect type count) s (fun args s' => args.length ≤ count ∧
      AcceptedAll (TypeSig.Good levels) TypeSig.size args s.cursor s'.cursor) SignatureFault := by
  refine meets_collect
    (fun done (s' : SignatureCursor) =>
      AcceptedAll (TypeSig.Good levels) TypeSig.size done s.cursor s'.cursor)
    (fun done s₁ h => ?_) (.nil (.refl _)) count
  exact (htype s₁).imp fun t s₂ ht => h.concat ⟨ht.storable, ht.nesting⟩ ht.passed

/-- An instantiation starts with what a token alone names: only such a type starts with one of the
two bytes that may come here. -/
lemma meets_instantiation {c : Cursor} {s : SignatureCursor} (hpassed : c.Passed s.cursor 1) :
    Meets (ofKind type .instantiation) s (fun t (s' : SignatureCursor) =>
      t.Announced .instantiation levels c s'.cursor) SignatureFault := by
  rw [ofKind]
  refine meets_bind (meets_liftM (Reader.meets_peek _)) fun b s₁ ⟨hhead, hstay⟩ => ?_
  simp only
  by_cases hb : b ≠ ElementKind.classType.code ∧ b ≠ ElementKind.valueType.code
  · rw [if_pos hb]
    exact meets_throw_bind (.instantiationHead b)
  · rw [if_neg hb]
    have hcode : b = ElementKind.classType.code ∨ b = ElementKind.valueType.code := by tauto
    refine meets_bind (htype s₁) fun base s₂ hbase => ?_
    refine meets_bind (meets_liftM (Reader.meets_compressed _)) fun count s₃ ⟨hcount, h₃⟩ => ?_
    refine meets_bind (meets_arguments htype count s₃) fun args s₄ ⟨hlength, hargs⟩ => ?_
    have hnamed : base.IsNamed := by
      have hstarts : ¬StartsModifier b := by
        rcases hcode with rfl | rfl
        · decide
        · decide
      rw [← hstay] at hhead
      apply TypeSig.isNamed_of_headCode
      rwa [hbase.head b hhead hstarts]
    refine meets_pure ⟨?_, ?_, ?_, rfl⟩
    · exact .instantiation hnamed hbase.storable (Nat.lt_of_le_of_lt hlength hcount)
        fun t ht => (hargs.each t ht).storable
    · rw [TypeSig.nesting_instantiation]
      have hmax := foldr_max_le fun t ht => (hargs.each t ht).nesting
      have hnesting := hbase.nesting
      omega
    · rw [TypeSig.size_instantiation]
      rw [← hstay] at hpassed
      exact (hpassed.trans (hbase.passed.trans (h₃.trans hargs.passed))).of_le (by omega)

/-- **A type of an announced kind** fits the format, and has a byte for each type in it.

**Proof sketch.** By cases on the kind. What is made of one type is one level deeper than this type
and adds the byte of its kind; a method has its own law, and so has an instantiation. -/
lemma meets_ofKind (kind : ElementKind) {c : Cursor} {s : SignatureCursor}
    (hpassed : c.Passed s.cursor 1) :
    Meets (ofKind type kind) s (fun t (s' : SignatureCursor) =>
      t.Announced kind levels c s'.cursor) SignatureFault := by
  cases kind with
  | pointer =>
    exact meets_bind (htype s) fun t s' ht =>
      meets_pure (ht.announced hpassed (.refl _) (.pointer ht.storable) rfl rfl rfl)
  | byRef =>
    exact meets_bind (htype s) fun t s' ht =>
      meets_pure (ht.announced hpassed (.refl _) (.byRef ht.storable) rfl rfl rfl)
  | vector =>
    exact meets_bind (htype s) fun t s' ht =>
      meets_pure (ht.announced hpassed (.refl _) (.vector ht.storable) rfl rfl rfl)
  | pinned =>
    exact meets_bind (htype s) fun t s' ht =>
      meets_pure (ht.announced hpassed (.refl _) (.pinned ht.storable) rfl rfl rfl)
  | array =>
    refine meets_bind (htype s) fun t s₁ ht => ?_
    refine meets_bind (meets_liftM (meets_arrayShape _)) fun rank s₂ ⟨hrank, h₂⟩ => ?_
    exact meets_pure (ht.announced hpassed h₂ (.array ht.storable hrank) rfl rfl rfl)
  | valueType =>
    refine meets_bind (meets_liftM (Reader.meets_compressedToken _)) fun token s₁ ⟨htoken, h₁⟩ => ?_
    exact meets_pure (.leaf (hpassed.trans h₁) (.valueType htoken) rfl rfl rfl)
  | classType =>
    refine meets_bind (meets_liftM (Reader.meets_compressedToken _)) fun token s₁ ⟨htoken, h₁⟩ => ?_
    exact meets_pure (.leaf (hpassed.trans h₁) (.classType htoken) rfl rfl rfl)
  | typeParameter =>
    refine meets_bind (meets_liftM (Reader.meets_compressed _)) fun index s₁ ⟨hindex, h₁⟩ => ?_
    exact meets_pure (.leaf (hpassed.trans h₁) (.typeParameter hindex) rfl rfl rfl)
  | methodParameter =>
    refine meets_bind (meets_liftM (Reader.meets_compressed _)) fun index s₁ ⟨hindex, h₁⟩ => ?_
    exact meets_pure (.leaf (hpassed.trans h₁) (.methodParameter hindex) rfl rfl rfl)
  | instantiation => exact meets_instantiation htype hpassed
  | functionPointer =>
    refine meets_bind (meets_methodOf htype s) fun m s' hm => meets_pure ⟨?_, ?_, ?_, rfl⟩
    · exact .functionPointer hm.storable.fits hm.storable.returns hm.storable.params
    · rw [TypeSig.nesting_functionPointer]
      exact Nat.succ_le_succ hm.nesting
    · rw [TypeSig.size_functionPointer]
      exact (hpassed.trans hm.passed).of_le (by omega)

/-- A type behind any modifiers. Its first byte is that of a built-in type or announces a kind. -/
lemma meets_typeOf (s : SignatureCursor) :
    Meets (typeOf type) s (fun t s' => TypeSig.Accepted t (levels + 1) s.cursor s'.cursor)
      SignatureFault := by
  rw [typeOf]
  refine meets_bind (meets_liftM (meets_modifiers _)) fun _ s₁ ⟨h₁, _, hstay⟩ => ?_
  refine meets_bind (meets_liftM (Reader.meets_byte _)) fun b s₂ ⟨hhead, h₂⟩ => ?_
  -- A byte that is next before the modifiers, and starts none, is also next behind them.
  have hnext : ∀ b', s.cursor.rest.head? = some b' → ¬StartsModifier b' → b' = b := by
    intro b' hb' hmodifier
    rw [hstay fun b'' hb'' => Option.some.inj (hb'.symm.trans hb'') ▸ hmodifier, hb'] at hhead
    exact Option.some.inj hhead
  have hpassed : s.cursor.Passed s₂.cursor 1 := (h₁.trans h₂).of_le (by decide)
  cases hprimitive : PrimitiveType.ofCode? b with
  | some p =>
    refine meets_pure ⟨.primitive p, Nat.le_add_left 1 levels, hpassed, fun b' hb' hmodifier => ?_⟩
    rw [hnext b' hb' hmodifier]
    exact PrimitiveType.code_of_ofCode? hprimitive
  | none =>
    cases hkind : ElementKind.ofCode? b with
    | none => exact meets_throw (.elementType b)
    | some kind =>
      refine (meets_ofKind htype kind hpassed).imp fun t s₃ ht =>
        ⟨ht.storable, ht.nesting, ht.passed, fun b' hb' hmodifier => ?_⟩
      rw [hnext b' hb' hmodifier, ht.head]
      exact ElementKind.code_of_ofCode? hkind

end Types

/-- What is read one level deeper is read between the same bytes. -/
lemma meets_nested {body : SignatureReader α} {s : SignatureCursor} {post : α → Cursor → Prop}
    {fault : Fault → Prop}
    (h : Meets body { s with depth := s.depth + 1 } (fun a s' => post a s'.cursor) fault) :
    Meets (nested body) s (fun a s' => post a s'.cursor) fault := by
  have hnested : (nested body).run s = nested body s := rfl
  unfold Meets at h ⊢
  rw [hnested, nested]
  cases hrun : body.run { s with depth := s.depth + 1 } with
  | ok a s' => rwa [hrun] at h
  | error e s' => rwa [hrun] at h

/-- **A type that may have `levels` levels** is refused, or fits the format, has no more levels, and
was paid for by a byte for each type in it.

**Proof sketch.** By induction on `levels`: the types inside a type may have one level less. -/
lemma meets_typeWithin (levels : ℕ) (s : SignatureCursor) :
    Meets (typeWithin levels) s (fun t s' => TypeSig.Accepted t levels s.cursor s'.cursor)
      SignatureFault := by
  induction levels generalizing s with
  | zero => exact SignatureFault.nesting
  | succ levels ih => exact meets_nested (meets_typeOf ih _)

/-- A type, wherever the reader is. -/
lemma meets_type (s : SignatureCursor) :
    Meets SignatureReader.type s (fun t s' => TypeSig.Accepted t (levelsAt 0) s.cursor s'.cursor)
      SignatureFault := by
  apply meets_get_bind
  refine (meets_typeWithin _ _).imp fun t s' ht => ⟨ht.storable, ?_, ht.passed, ht.head⟩
  have hlevels := ht.nesting
  unfold levelsAt at hlevels ⊢
  omega

/-- The type of a field, behind its mark. -/
lemma meets_field (s : SignatureCursor) :
    Meets field s (fun t (s' : SignatureCursor) =>
      t.Good (levelsAt 0) ∧ s.cursor.Passed s'.cursor t.size) SignatureFault := by
  rw [field]
  refine meets_bind (meets_liftM (Reader.meets_byte _)) fun b s₁ ⟨_, h₁⟩ => ?_
  simp only
  by_cases hb : b ≠ fieldMark
  · rw [if_pos hb]
    exact meets_throw_bind (.fieldHead b)
  · rw [if_neg hb]
    refine (meets_type s₁).imp fun t s₂ ht => ⟨⟨ht.storable, ht.nesting⟩, ?_⟩
    exact (h₁.trans ht.passed).of_le (Nat.le_add_left _ _)

/-- A method. -/
lemma meets_method (s : SignatureCursor) :
    Meets method s (fun m s' => MethodSig.Accepted m (levelsAt 0) s.cursor s'.cursor)
      SignatureFault :=
  meets_methodOf meets_type s


end SignatureReader

end TypeInventory
