import TypeInventory.Proofs.Bytes.Compressed
import TypeInventory.Proofs.Signature.RoundTrip

set_option relaxedAutoImplicit false
set_option autoImplicit false

/-!
# Calls on one reader of signatures

Several signatures may be read from one blob, one behind the other. The reader counts the types that
it is inside of, and a type that is refused because it is nested too deeply stays counted. So each
call that ends like this takes one level away from all calls behind it; no other call does, whether
it succeeds or fails. Besides that, earlier calls make no difference: a call that is not refused
gives what a new reader gives at the same place.

Both facts come from one comparison of a reader with itself, inside of more and of fewer types.

## Main definitions

* `Reader.IsFlat` — readers that are never refused for nesting.
* `SignatureReader.ReadsAlike` — readers at two depths that give the same unless the first one is
  refused.
* `SignatureCall`, `SignatureCursor.after` — a call, and where the reader is behind calls in a row.
* `SignatureCursor.refusals` — how many of these calls were refused for nesting.

## Main results

* `SignatureReader.readsAlike_typeWithin` — types, with fewer levels left and with more.
* `SignatureCall.readsAlike` — calls, inside of more types and of fewer.
* `SignatureCursor.depth_after` — the types that stay counted are the calls that were refused.
* `SignatureReader.calls_count_refusals` — what the next call does, behind any calls.
-/

namespace TypeInventory

/-! ## Readers without nesting -/

namespace Reader

variable {α β : Type}

/-- A reader that is never refused for nesting. -/
def IsFlat (r : Reader α) : Prop :=
  ∀ c e c', r.run c = .error e c' → e ≠ .nesting

lemma isFlat_pure (a : α) : (pure a : Reader α).IsFlat :=
  fun _ _ _ h => nomatch h

lemma isFlat_throw {e : Fault} (he : e ≠ .nesting) : (throw e : Reader α).IsFlat := by
  intro c e' c' h
  cases h
  exact he

lemma isFlat_bind {x : Reader α} {f : α → Reader β} (hx : x.IsFlat) (hf : ∀ a, (f a).IsFlat) :
    (x >>= f).IsFlat := by
  intro c e c' h
  obtain h | ⟨a, c₁, -, h⟩ := run_bind_eq_error h
  · exact hx c e c' h
  · exact hf a c₁ e c' h

lemma isFlat_get_bind {f : Cursor → Reader α} (hf : ∀ c, (f c).IsFlat) : (get >>= f).IsFlat :=
  isFlat_bind (fun _ _ _ h => nomatch h) hf

lemma isFlat_byte : byte.IsFlat := by
  intro c e c' h
  rw [run_byte_eq_error h]
  exact Fault.noConfusion

lemma isFlat_peek : peek.IsFlat := by
  intro c e c' h
  rw [run_peek_eq_dite] at h
  split_ifs at h
  cases h
  exact Fault.noConfusion

lemma isFlat_skip (n : ℕ) : (skip n).IsFlat := by
  intro c e c' h
  rw [run_skip_eq_ite] at h
  split_ifs at h
  cases h
  exact Fault.noConfusion

lemma isFlat_compressed : compressed.IsFlat := by
  intro c e c' h
  rw [run_compressed_eq_error h]
  obtain hfault | ⟨cause, hfault⟩ := compressedFault_cases c.rest
  · rw [hfault]
    exact Fault.noConfusion
  · rw [hfault]
    exact Fault.noConfusion

lemma isFlat_compressedToken : compressedToken.IsFlat := by
  refine isFlat_bind isFlat_compressed fun value => ?_
  cases CodedIndex.decode? .typeDefOrRef value with
  | some i => exact isFlat_pure i.token
  | none => exact isFlat_throw Fault.noConfusion

lemma isFlat_collect {r : Reader α} (h : r.IsFlat) (n : ℕ) : IsFlat (collect r n) := by
  induction n with
  | zero => exact isFlat_pure []
  | succ n ih =>
    rw [collect_succ]
    refine isFlat_bind h fun a => ?_
    rw [map_eq_pure_bind]
    exact isFlat_bind ih fun _ => isFlat_pure _

end Reader

namespace SignatureReader

open Reader

lemma isFlat_modifiersUpTo (n : ℕ) : (modifiersUpTo n).IsFlat := by
  induction n with
  | zero => exact isFlat_pure ()
  | succ n ih =>
    rw [modifiersUpTo]
    refine isFlat_get_bind fun c => ?_
    split_ifs
    · refine isFlat_bind isFlat_peek fun byte => ?_
      split_ifs
      · exact isFlat_bind (isFlat_skip 1) fun _ => isFlat_bind isFlat_compressedToken fun _ => ih
      · exact isFlat_pure ()
    · exact isFlat_pure ()

lemma isFlat_modifiers : modifiers.IsFlat :=
  isFlat_get_bind fun c => isFlat_modifiersUpTo c.remaining

lemma isFlat_arrayShape : arrayShape.IsFlat := by
  refine isFlat_bind isFlat_compressed fun rank => ?_
  refine isFlat_bind isFlat_compressed fun sizeCount => ?_
  refine isFlat_bind (isFlat_collect isFlat_compressed sizeCount) fun _ => ?_
  refine isFlat_bind isFlat_compressed fun boundCount => ?_
  exact isFlat_bind (isFlat_collect isFlat_compressed boundCount) fun _ => isFlat_pure rank

/-! ## The same reader at two depths -/

section Alike

variable {α β : Type} {d d' : ℕ}

/-- What comes of two readers that start at the same place, the first one inside of `d` types and
the second one inside of `d'`, when nothing but this tells them apart. -/
inductive SameUnlessRefused (d d' : ℕ) :
    EStateM.Result Fault SignatureCursor α → EStateM.Result Fault SignatureCursor α → Prop
  /-- Both give the same and stop at the same place, each one where it was among types. -/
  | ok (a : α) (c : Cursor) : SameUnlessRefused d d' (.ok a ⟨c, d⟩) (.ok a ⟨c, d'⟩)
  /-- Both fail alike, for another reason than nesting. -/
  | error {e : Fault} (he : e ≠ .nesting) (c : Cursor) :
    SameUnlessRefused d d' (.error e ⟨c, d⟩) (.error e ⟨c, d'⟩)
  /-- The first one is refused for nesting, and one more type is counted than before. -/
  | refused (c : Cursor) (result : EStateM.Result Fault SignatureCursor α) :
    SameUnlessRefused d d' (.error .nesting ⟨c, d + 1⟩) result

/-- From every place, the reader `x` inside of `d` types gives what `y` gives inside of `d'`, unless
it is refused for nesting. -/
def ReadsAlike (x y : SignatureReader α) (d d' : ℕ) : Prop :=
  ∀ c, SameUnlessRefused d d' (x.run ⟨c, d⟩) (y.run ⟨c, d'⟩)

lemma readsAlike_pure (a : α) : ReadsAlike (pure a) (pure a) d d' :=
  fun c => .ok a c

lemma readsAlike_throw {e : Fault} (he : e ≠ .nesting) :
    ReadsAlike (throw e : SignatureReader α) (throw e) d d' :=
  fun c => .error he c

/-- Behind an error nothing is read. -/
lemma readsAlike_throw_bind {e : Fault} (he : e ≠ .nesting) {f g : α → SignatureReader β} :
    ReadsAlike (throw e >>= f) (throw e >>= g) d d' :=
  fun c => .error he c

/-- **Readers in a row** read alike when each of them does. -/
lemma readsAlike_bind {x y : SignatureReader α} {f g : α → SignatureReader β}
    (h : ReadsAlike x y d d') (hnext : ∀ a, ReadsAlike (f a) (g a) d d') :
    ReadsAlike (x >>= f) (y >>= g) d d' := by
  intro c
  have hfirst := h c
  rw [EStateM.run_bind, EStateM.run_bind]
  generalize x.run ⟨c, d⟩ = r at hfirst ⊢
  generalize y.run ⟨c, d'⟩ = r' at hfirst ⊢
  cases hfirst with
  | ok a c' => exact hnext a c'
  | error he c' => exact .error he c'
  | refused c' r' => exact .refused c' _

lemma readsAlike_map {x y : SignatureReader α} (g : α → β) (h : ReadsAlike x y d d') :
    ReadsAlike (g <$> x) (g <$> y) d d' := by
  rw [map_eq_pure_bind, map_eq_pure_bind]
  exact readsAlike_bind h fun a => readsAlike_pure (g a)

/-- A reader of bytes does not know how many types it is inside of. -/
lemma readsAlike_ofReader {r : Reader α} (h : r.IsFlat) :
    ReadsAlike (ofReader r) (ofReader r) d d' := by
  intro c
  change SameUnlessRefused d d' (ofReader r ⟨c, d⟩) (ofReader r ⟨c, d'⟩)
  rw [ofReader, ofReader]
  cases hrun : r.run c with
  | ok a c' => exact .ok a c'
  | error e c' => exact .error (h c e c' hrun) c'

lemma readsAlike_liftM {r : Reader α} (h : r.IsFlat) :
    ReadsAlike (liftM r : SignatureReader α) (liftM r) d d' :=
  readsAlike_ofReader h

/-- Readers that are run several times. By induction on how often they may be run. -/
lemma readsAlike_collectWhile {x y : SignatureReader (Option α)} (h : ReadsAlike x y d d')
    (n : ℕ) : ReadsAlike (collectWhile x n) (collectWhile y n) d d' := by
  induction n with
  | zero => exact readsAlike_pure []
  | succ n ih =>
    rw [collectWhile_succ, collectWhile_succ]
    refine readsAlike_bind h fun o => ?_
    cases o with
    | none => exact readsAlike_pure []
    | some a => exact readsAlike_map (a :: ·) ih

lemma readsAlike_collect {x y : SignatureReader α} (h : ReadsAlike x y d d') (n : ℕ) :
    ReadsAlike (collect x n) (collect y n) d d' :=
  readsAlike_collectWhile (readsAlike_map some h) n

/-- One level deeper: the level is left again, also when the reader is refused further down. -/
lemma readsAlike_nested {x y : SignatureReader α} (h : ReadsAlike x y (d + 1) (d' + 1)) :
    ReadsAlike (nested x) (nested y) d d' := by
  intro c
  have hbody := h c
  change SameUnlessRefused d d' (nested x ⟨c, d⟩) (nested y ⟨c, d'⟩)
  rw [nested, nested]
  generalize x.run ⟨c, d + 1⟩ = r at hbody ⊢
  generalize y.run ⟨c, d' + 1⟩ = r' at hbody ⊢
  cases hbody with
  | ok a c' => exact .ok a c'
  | error he c' => exact .error he c'
  | refused c' r' => exact .refused c' _

end Alike

/-! ## The parts of a signature -/

section Parts

-- Whatever holds two readers of types together holds the readers around them together.
variable {x y : SignatureReader TypeSig} {d d' : ℕ} (h : ReadsAlike x y d d')

include h

lemma readsAlike_param : ReadsAlike (param x) (param y) d d' := by
  rw [param, param]
  refine readsAlike_bind (readsAlike_liftM isFlat_modifiers) fun _ => ?_
  refine readsAlike_bind (readsAlike_liftM isFlat_peek) fun byte => ?_
  split_ifs
  · refine readsAlike_bind (readsAlike_liftM (isFlat_skip 1)) fun _ => ?_
    exact readsAlike_bind h fun t => readsAlike_pure _
  · exact readsAlike_bind h fun t => readsAlike_pure _

lemma readsAlike_paramOrEnd : ReadsAlike (paramOrEnd x) (paramOrEnd y) d d' := by
  rw [paramOrEnd, paramOrEnd]
  refine readsAlike_bind (readsAlike_liftM isFlat_peek) fun byte => ?_
  split_ifs
  · exact readsAlike_pure none
  · exact readsAlike_bind (readsAlike_param h) fun p => readsAlike_pure (some p)

/-- A method, behind its calling convention and the number of its generic parameters. -/
lemma readsAlike_params (hasThis explicitThis vararg : Bool) (genericCount : ℕ) :
    ReadsAlike
      (do
        let count ← Reader.compressed
        let returns ← param x
        let params ← collectWhile (paramOrEnd x) count
        return ⟨hasThis, explicitThis, vararg, genericCount, returns, params⟩ :
          SignatureReader MethodSig)
      (do
        let count ← Reader.compressed
        let returns ← param y
        let params ← collectWhile (paramOrEnd y) count
        return ⟨hasThis, explicitThis, vararg, genericCount, returns, params⟩) d d' := by
  refine readsAlike_bind (readsAlike_liftM isFlat_compressed) fun count => ?_
  refine readsAlike_bind (readsAlike_param h) fun returns => ?_
  refine readsAlike_bind (readsAlike_collectWhile (readsAlike_paramOrEnd h) count) fun params => ?_
  exact readsAlike_pure _

lemma readsAlike_methodOf : ReadsAlike (methodOf x) (methodOf y) d d' := by
  rw [methodOf, methodOf]
  refine readsAlike_bind (readsAlike_liftM isFlat_byte) fun convention => ?_
  simp only
  by_cases hkind : 5 < convention.toNat % 16
  · rw [if_pos hkind, if_pos hkind]
    exact readsAlike_throw_bind Fault.noConfusion
  · rw [if_neg hkind, if_neg hkind]
    split_ifs
    · refine readsAlike_bind (readsAlike_ofReader isFlat_compressed) fun genericCount => ?_
      exact readsAlike_params h _ _ _ genericCount
    · exact readsAlike_params h _ _ _ 0

lemma readsAlike_instantiation :
    ReadsAlike (ofKind x .instantiation) (ofKind y .instantiation) d d' := by
  rw [ofKind, ofKind]
  refine readsAlike_bind (readsAlike_liftM isFlat_peek) fun byte => ?_
  simp only
  by_cases hb : byte ≠ ElementKind.classType.code ∧ byte ≠ ElementKind.valueType.code
  · rw [if_pos hb, if_pos hb]
    exact readsAlike_throw_bind Fault.noConfusion
  · rw [if_neg hb, if_neg hb]
    refine readsAlike_bind h fun base => ?_
    refine readsAlike_bind (readsAlike_liftM isFlat_compressed) fun count => ?_
    exact readsAlike_bind (readsAlike_collect h count) fun args => readsAlike_pure _

/-- A type of an announced kind. By cases on the kind. -/
lemma readsAlike_ofKind (kind : ElementKind) :
    ReadsAlike (ofKind x kind) (ofKind y kind) d d' := by
  cases kind with
  | pointer | byRef | vector | pinned => exact readsAlike_bind h fun t => readsAlike_pure _
  | valueType | classType =>
    exact readsAlike_bind (readsAlike_liftM isFlat_compressedToken) fun token => readsAlike_pure _
  | typeParameter | methodParameter =>
    exact readsAlike_bind (readsAlike_liftM isFlat_compressed) fun index => readsAlike_pure _
  | array =>
    refine readsAlike_bind h fun t => ?_
    exact readsAlike_bind (readsAlike_liftM isFlat_arrayShape) fun rank => readsAlike_pure _
  | instantiation => exact readsAlike_instantiation h
  | functionPointer => exact readsAlike_bind (readsAlike_methodOf h) fun m => readsAlike_pure _

lemma readsAlike_typeOf : ReadsAlike (typeOf x) (typeOf y) d d' := by
  rw [typeOf, typeOf]
  refine readsAlike_bind (readsAlike_liftM isFlat_modifiers) fun _ => ?_
  refine readsAlike_bind (readsAlike_liftM isFlat_byte) fun byte => ?_
  cases PrimitiveType.ofCode? byte with
  | some p => exact readsAlike_pure (TypeSig.primitive p)
  | none =>
    cases ElementKind.ofCode? byte with
    | some kind => exact readsAlike_ofKind h kind
    | none => exact readsAlike_throw Fault.noConfusion

end Parts

/-- **Types**, with fewer levels left and with more. Where the levels of the first reader end, it is
refused, whatever the second one does there.

**Proof sketch.** By induction on the levels of the first reader. -/
lemma readsAlike_typeWithin {levels levels' : ℕ} (h : levels ≤ levels') :
    ∀ d d', ReadsAlike (typeWithin levels) (typeWithin levels') d d' := by
  induction levels generalizing levels' with
  | zero => exact fun d d' c => .refused c _
  | succ levels ih =>
    intro d d'
    obtain ⟨more, rfl⟩ := Nat.exists_eq_add_of_le' h
    exact readsAlike_nested (readsAlike_typeOf (ih (Nat.le_add_left _ _) (d + 1) (d' + 1)))

lemma readsAlike_type {d d' : ℕ} (h : d' ≤ d) :
    ReadsAlike SignatureReader.type SignatureReader.type d d' := by
  intro c
  have hlevels : levelsAt d ≤ levelsAt d' := by
    unfold levelsAt
    omega
  exact readsAlike_typeWithin hlevels d d' c

lemma readsAlike_field {d d' : ℕ} (h : d' ≤ d) : ReadsAlike field field d d' := by
  rw [field]
  refine readsAlike_bind (readsAlike_liftM isFlat_byte) fun byte => ?_
  simp only
  by_cases hb : byte ≠ fieldMark
  · rw [if_pos hb]
    exact readsAlike_throw_bind Fault.noConfusion
  · rw [if_neg hb]
    exact readsAlike_type h

lemma readsAlike_method {d d' : ℕ} (h : d' ≤ d) : ReadsAlike method method d d' :=
  readsAlike_methodOf (readsAlike_type h)

end SignatureReader

/-! ## Calls -/

/-- A call on a reader of signatures: for the signature of a method, of a field or of a type. -/
inductive SignatureCall where
  | method
  | field
  | type
deriving DecidableEq

namespace SignatureCall

/-- What a call gives when it succeeds. -/
def Answer : SignatureCall → Type
  | method => MethodSig
  | field | type => TypeSig

/-- The reader that a call runs. -/
def reader : (call : SignatureCall) → SignatureReader call.Answer
  | method => SignatureReader.method
  | field => SignatureReader.field
  | type => SignatureReader.type

/-- What a call gives. -/
def answer (call : SignatureCall) (s : SignatureCursor) : Except Fault call.Answer :=
  match call.reader.run s with
  | .ok a _ => .ok a
  | .error e _ => .error e

/-- Where a call leaves the reader, whether it succeeds or fails. -/
def leaves (call : SignatureCall) (s : SignatureCursor) : SignatureCursor :=
  match call.reader.run s with
  | .ok _ s' => s'
  | .error _ s' => s'

/-- Whether a call is refused because a type is nested too deeply. -/
def isRefused (call : SignatureCall) (s : SignatureCursor) : Bool :=
  match call.reader.run s with
  | .ok _ _ => false
  | .error e _ => e = .nesting

/-- **A call inside of more types** gives what it gives inside of fewer, unless it is refused. -/
lemma readsAlike (call : SignatureCall) {d d' : ℕ} (h : d' ≤ d) :
    SignatureReader.ReadsAlike call.reader call.reader d d' := by
  cases call with
  | method => exact SignatureReader.readsAlike_method h
  | field => exact SignatureReader.readsAlike_field h
  | type => exact SignatureReader.readsAlike_type h

/-- One more type is counted behind a call exactly when the call is refused. -/
lemma depth_leaves (call : SignatureCall) (s : SignatureCursor) :
    (call.leaves s).depth = s.depth + if call.isRefused s then 1 else 0 := by
  have hsame := call.readsAlike (Nat.le_refl s.depth) s.cursor
  change SignatureReader.SameUnlessRefused s.depth s.depth (call.reader.run s) _ at hsame
  unfold leaves isRefused
  generalize call.reader.run s = r at hsame ⊢
  cases hsame with
  | ok a c => rfl
  | error he c => simp [he]
  | refused c r => simp

/-- A call that is not refused gives what it gives outside of all types, and stops there as well. -/
lemma answer_eq_of_not_isRefused {call : SignatureCall} {s : SignatureCursor}
    (h : call.isRefused s = false) :
    call.answer s = call.answer ⟨s.cursor, 0⟩ ∧
    (call.leaves s).cursor = (call.leaves ⟨s.cursor, 0⟩).cursor := by
  have hsame := call.readsAlike (Nat.zero_le s.depth) s.cursor
  change SignatureReader.SameUnlessRefused s.depth 0 (call.reader.run s) _ at hsame
  unfold isRefused at h
  unfold answer leaves
  generalize call.reader.run s = r at h hsame ⊢
  generalize call.reader.run ⟨s.cursor, 0⟩ = r' at hsame ⊢
  cases hsame with
  | ok a c => exact ⟨rfl, rfl⟩
  | error he c => exact ⟨rfl, rfl⟩
  | refused c r => simp at h

end SignatureCall

namespace SignatureCursor

/-- Where the reader is behind calls in a row. Calls go on behind those that fail. -/
def after (s : SignatureCursor) : List SignatureCall → SignatureCursor
  | [] => s
  | call :: calls => (call.leaves s).after calls

/-- How many of the calls in a row are refused because a type is nested too deeply. -/
def refusals (s : SignatureCursor) : List SignatureCall → ℕ
  | [] => 0
  | call :: calls => (if call.isRefused s then 1 else 0) + (call.leaves s).refusals calls

/-- **The types that stay counted** are the calls that were refused. By induction on the calls. -/
lemma depth_after (s : SignatureCursor) (calls : List SignatureCall) :
    (s.after calls).depth = s.depth + s.refusals calls := by
  induction calls generalizing s with
  | nil => rfl
  | cons call calls ih => rw [after, refusals, ih, call.depth_leaves, Nat.add_assoc]

end SignatureCursor

namespace SignatureReader

/-- **Refused calls are counted**, and change nothing else. Let calls for signatures be made one
behind the other on one blob, whatever comes of them.

* As many types stay counted as calls were refused for nesting; and the next call leaves one more
  counted exactly when it is refused as well.
* If the next call is not refused, it gives what a new reader gives at the same place, be that a
  signature or an error, and stops there.
* A signature that is written at this place is given back when its nesting is within the levels that
  are left, one less for each call that was refused; otherwise the call is refused.

**Proof sketch.** A reader inside of some types is compared with itself outside of all types
(`SignatureCall.readsAlike`), and with itself at the same depth: either both give the same and leave
the types that they entered, or the first one is refused and leaves one type counted. The count is
then an induction over the calls. -/
theorem calls_count_refusals (blob : ByteArray) (calls : List SignatureCall) :
    let s := (SignatureCursor.ofBlob blob).after calls
    s.depth = (SignatureCursor.ofBlob blob).refusals calls ∧
    (∀ call : SignatureCall,
      (call.leaves s).depth = s.depth + if call.isRefused s then 1 else 0) ∧
    (∀ call : SignatureCall, call.isRefused s = false →
      call.answer s = call.answer ⟨s.cursor, 0⟩ ∧
      (call.leaves s).cursor = (call.leaves ⟨s.cursor, 0⟩).cursor) ∧
    (∀ t : TypeSig, t.Storable → ∀ bytes, t.Written bytes →
      SignatureReader.type.Answers s.depth (levelsAt s.depth) Anything t.nesting bytes t ∧
      field.Answers s.depth (levelsAt s.depth) Anything t.nesting (fieldMark :: bytes) t) ∧
    ∀ m : MethodSig, m.Storable → ∀ bytes, m.Written bytes →
      method.Answers s.depth (levelsAt s.depth) Anything m.nesting bytes m := by
  intro s
  refine ⟨?_, fun call => call.depth_leaves s, fun call => call.answer_eq_of_not_isRefused, ?_, ?_⟩
  · exact ((SignatureCursor.ofBlob blob).depth_after calls).trans (Nat.zero_add _)
  · intro t ht bytes hbytes
    exact ⟨(answersBare_type ht).answers_modified hbytes, answers_field ht hbytes⟩
  · exact fun m hm bytes hbytes => answers_method hm hbytes

/-- A number behind 97 vectors. A new reader stops at the 50th type, so two calls are refused before
the number is reached. -/
def nestedBlob : ByteArray :=
  ⟨(List.replicate 97 ElementKind.vector.code ++ [PrimitiveType.i4.code]).toArray⟩

/-- The number is read by the third call, inside of two types that stay counted. -/
theorem calls_count_refusals_nestedBlob :
    let s := (SignatureCursor.ofBlob nestedBlob).after [.type, .type]
    s.depth = 2 ∧ SignatureCall.type.isRefused s = false ∧
    SignatureCall.type.answer s = SignatureCall.type.answer ⟨s.cursor, 0⟩ ∧
    s.cursor.rest = [PrimitiveType.i4.code] ∧ (TypeSig.primitive .i4).nesting ≤ levelsAt s.depth ∧
    SignatureReader.type.run s = .ok (.primitive .i4) (s.advance 1) := by
  intro s
  obtain ⟨hdepth, -, hanswer, hwritten, -⟩ := calls_count_refusals nestedBlob [.type, .type]
  have htwo : s.depth = 2 := hdepth.trans (by decide +kernel)
  have hread : SignatureCall.type.isRefused s = false := by decide +kernel
  have hrest : s.cursor.rest = [PrimitiveType.i4.code] := by decide +kernel
  have hlevels : (TypeSig.primitive .i4).nesting ≤ levelsAt s.depth := by
    rw [htwo]
    decide
  have hanswers := (hwritten _ (.primitive .i4) _ (.intro [] (.primitive .i4))).1
  exact ⟨htwo, hread, (hanswer .type hread).1, hrest, hlevels,
    hanswers.reads hlevels s [] rfl trivial hrest⟩

/-- **A refused type stays counted.** Behind one call that was refused on a new reader, another call
for a type is refused that a new reader would not refuse at the same place. -/
theorem refused_type_stays_counted :
    (SignatureCursor.ofBlob nestedBlob).depth = 0 ∧
    ((SignatureCursor.ofBlob nestedBlob).after [.type]).depth = 1 ∧
    SignatureCall.type.isRefused ((SignatureCursor.ofBlob nestedBlob).after [.type]) = true ∧
    SignatureCall.type.isRefused
      ⟨((SignatureCursor.ofBlob nestedBlob).after [.type]).cursor, 0⟩ = false := by
  decide +kernel

end SignatureReader

end TypeInventory
