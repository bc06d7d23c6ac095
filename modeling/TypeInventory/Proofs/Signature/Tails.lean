import TypeInventory.Proofs.Signature.RoundTrip

set_option relaxedAutoImplicit false
set_option autoImplicit false

/-!
# Parameters and the mark before further arguments

A method announces how many parameters it has, and the reader of a method stops early at the mark
before further arguments. The mark may belong to a function inside of a parameter: the reader of
that function stops in front of it, and so does the reader of the method around it, which takes it
for its own. The parameters behind it are then lost, although the method was announced without
further arguments.

## Main definitions

* `SignatureReader.announcedCount` — the number of parameters that a method announces.
* `TypeSig.BareOpen`, `MethodShape.WrittenOpen` — types and methods that end with the further
  arguments of a function, up to the mark before these.
* `MethodSig.WrittenWhole` — the written forms of a method whose return value and parameters may end
  with further arguments.

## Main results

* `SignatureReader.length_of_run_methodOf` — a method has as many parameters as it announces, unless
  the mark is next.
* `SignatureReader.answersWritten_bareOpen` — types that end with further arguments are read up to
  the mark.
* `SignatureReader.params_end_at_sentinel` — which parameters of a method are read, and when they
  are all of them.
-/

namespace TypeInventory

/-! ## The announced number of parameters -/

section Collecting

variable {ε σ α : Type}

/-- A computation that is run at most `n` times has `n` results, or the last run gave nothing. -/
lemma length_of_run_collectWhile {step : EStateM ε σ (Option α)} (n : ℕ) :
    ∀ s as s', (collectWhile step n).run s = .ok as s' →
      as.length = n ∨ as.length < n ∧ ∃ s₁, step.run s₁ = .ok none s' := by
  induction n with
  | zero =>
    intro s as s' h
    cases h
    exact .inl rfl
  | succ n ih =>
    intro s as s' h
    rw [collectWhile_succ, run_bind_eq_ok_iff] at h
    obtain ⟨o, s₁, hstep, hrest⟩ := h
    cases o with
    | none =>
      cases hrest
      exact .inr ⟨Nat.succ_pos n, s, hstep⟩
    | some a =>
      simp only [map_eq_pure_bind] at hrest
      rw [run_bind_eq_ok_iff] at hrest
      obtain ⟨as, s₂, hcollect, hrest⟩ := hrest
      cases hrest
      rcases ih s₁ as s' hcollect with hlength | ⟨hlength, hend⟩
      · exact .inl (congrArg (· + 1) hlength)
      · exact .inr ⟨Nat.succ_lt_succ hlength, hend⟩

end Collecting

namespace SignatureReader

/-- The number of parameters that a method announces, behind its calling convention and the number
of its generic parameters. -/
def announcedCount : Reader ℕ := do
  let convention ← Reader.byte
  if convention.toNat.testBit 4 then
    let _ ← Reader.compressed
    Reader.compressed
  else
    Reader.compressed

section Lengths

variable {α : Type} {s s' : SignatureCursor} {type : SignatureReader TypeSig} {m : MethodSig}

/-- A reader of bytes moves the cursor alone. -/
lemma run_of_run_liftM {r : Reader α} {a : α}
    (h : (liftM r : SignatureReader α).run s = .ok a s') : r.run s.cursor = .ok a s'.cursor := by
  change ofReader r s = _ at h
  rw [ofReader] at h
  cases hr : r.run s.cursor with
  | ok a c =>
    rw [hr] at h
    cases h
    rfl
  | error e c =>
    rw [hr] at h
    cases h

/-- A byte that was looked at is next. -/
lemma head?_rest_of_run_peek {c c' : Cursor} {b : UInt8} (h : Reader.peek.run c = .ok b c') :
    c' = c ∧ c.rest.head? = some b := by
  change Reader.peek c = _ at h
  rw [Reader.peek] at h
  split_ifs at h with hpos
  cases h
  refine ⟨rfl, ?_⟩
  rw [Cursor.rest, List.head?_drop, Array.getElem?_toList]
  exact Array.getElem?_eq_getElem hpos

/-- Parameters end only in front of the mark. -/
lemma head?_rest_of_run_paramOrEnd (h : (paramOrEnd type).run s = .ok none s') :
    s'.cursor.rest.head? = some sentinel := by
  rw [paramOrEnd, run_bind_eq_ok_iff] at h
  obtain ⟨b, s₁, hpeek, hrest⟩ := h
  obtain ⟨hcursor, hhead⟩ := head?_rest_of_run_peek (run_of_run_liftM hpeek)
  split_ifs at hrest with hb
  · cases hrest
    rw [hcursor, hhead, hb]
  · rw [run_bind_eq_ok_iff] at hrest
    obtain ⟨p, s₂, -, hsome⟩ := hrest
    cases hsome

/-- The parameters of a method, behind their number and the return value: as many as that number, or
up to the mark. -/
lemma length_of_run_params {hasThis explicitThis vararg : Bool} {genericCount : ℕ}
    (h : (do
      let count ← Reader.compressed
      let returns ← param type
      let params ← collectWhile (paramOrEnd type) count
      return ⟨hasThis, explicitThis, vararg, genericCount, returns, params⟩ :
        SignatureReader MethodSig).run s = .ok m s') :
    ∃ count c, Reader.compressed.run s.cursor = .ok count c ∧
      (m.params.length = count ∨
        m.params.length < count ∧ s'.cursor.rest.head? = some sentinel) := by
  rw [run_bind_eq_ok_iff] at h
  obtain ⟨count, s₁, hcount, h⟩ := h
  rw [run_bind_eq_ok_iff] at h
  obtain ⟨returns, s₂, -, h⟩ := h
  rw [run_bind_eq_ok_iff] at h
  obtain ⟨params, s₃, hparams, h⟩ := h
  cases h
  refine ⟨count, s₁.cursor, run_of_run_liftM hcount, ?_⟩
  rcases length_of_run_collectWhile count s₂ params s' hparams with hlength | ⟨hlength, s₄, hend⟩
  · exact .inl hlength
  · exact .inr ⟨hlength, head?_rest_of_run_paramOrEnd hend⟩

/-- **A method has as many parameters as it announces, unless the mark is next.**

**Proof sketch.** Their number is read in the same way, and none of them is passed over: the loop
ends when it has as many as announced, or in front of the mark. -/
lemma length_of_run_methodOf (h : (methodOf type).run s = .ok m s') :
    ∃ count c, announcedCount.run s.cursor = .ok count c ∧
      (m.params.length = count ∨
        m.params.length < count ∧ s'.cursor.rest.head? = some sentinel) := by
  rw [methodOf, run_bind_eq_ok_iff] at h
  obtain ⟨convention, s₁, hconvention, h⟩ := h
  simp only at h
  by_cases hkind : 5 < convention.toNat % 16
  · rw [if_pos hkind, run_bind_eq_ok_iff] at h
    obtain ⟨_, _, hthrow, -⟩ := h
    cases hthrow
  rw [if_neg hkind] at h
  rw [announcedCount, EStateM.run_bind, run_of_run_liftM hconvention]
  simp only
  by_cases hgeneric : convention.toNat.testBit 4 = true
  · rw [if_pos hgeneric, run_bind_eq_ok_iff] at h
    obtain ⟨genericCount, s₂, hcount, h⟩ := h
    have hread : Reader.compressed.run s₁.cursor = .ok genericCount s₂.cursor :=
      run_of_run_liftM hcount
    rw [if_pos hgeneric, EStateM.run_bind, hread]
    exact length_of_run_params h
  · rw [if_neg hgeneric] at h
    rw [if_neg hgeneric]
    exact length_of_run_params h

end Lengths

end SignatureReader

/-! ## Further arguments at the end -/

/-- A method up to the mark before further arguments, where `extra` more are announced than it has
parameters: the further arguments are its own, or those at the end of its last parameter, or those
at the end of its return value if it has no parameters. -/
inductive MethodShape.WrittenOpen {α : Type} (written writtenOpen : α → List UInt8 → Prop) :
    MethodShape α → List UInt8 → Prop
  | own {extra : ℕ} {m : MethodShape α} {head : List UInt8} {parts : List (List UInt8)}
    (hextra : 0 < extra) (hcount : m.params.length + extra < 2 ^ 29)
    (hhead : MethodShape.Head written (m.params.length + extra) m head)
    (hparams : List.Forall₂ (ParamShape.Written written) m.params parts) :
    MethodShape.WrittenOpen written writtenOpen m (head ++ parts.flatten)
  | lastParam {extra : ℕ} {m : MethodShape α} {front : List (ParamShape α)} {last : ParamShape α}
    {head part : List UInt8} {parts : List (List UInt8)} (hcount : m.params.length + extra < 2 ^ 29)
    (hhead : MethodShape.Head written (m.params.length + extra) m head)
    (hparams : m.params = front ++ [last])
    (hfront : List.Forall₂ (ParamShape.Written written) front parts)
    (hlast : ParamShape.Written writtenOpen last part) :
    MethodShape.WrittenOpen written writtenOpen m (head ++ (parts.flatten ++ part))
  | returns {extra : ℕ} {m : MethodShape α} {head : List UInt8} (hcount : extra < 2 ^ 29)
    (hhead : MethodShape.Head writtenOpen extra m head) (hparams : m.params = []) :
    MethodShape.WrittenOpen written writtenOpen m head

/-- What stands before the parameters of a method does not depend on them. -/
lemma MethodShape.Head.withParams {α : Type} {written : α → List UInt8 → Prop} {count : ℕ}
    {m : MethodShape α} {head : List UInt8} (h : MethodShape.Head written count m head)
    (params : List (ParamShape α)) :
    MethodShape.Head written count { m with params := params } head := by
  cases h with
  | intro _ hconvention hvararg hgeneric hreturns =>
    exact .intro count hconvention hvararg hgeneric hreturns

namespace TypeSig

/-- The written forms of a type that ends with the further arguments of a function, up to the mark
before these, without modifiers before it. Arrays are not among them: the shape of an array stands
behind its element type. -/
inductive BareOpen : TypeSig → List UInt8 → Prop
  | pointer {t : TypeSig} {bytes : List UInt8} (h : Modified BareOpen t bytes) :
    BareOpen (.pointer t) (ElementKind.pointer.code :: bytes)
  | byRef {t : TypeSig} {bytes : List UInt8} (h : Modified BareOpen t bytes) :
    BareOpen (.byRef t) (ElementKind.byRef.code :: bytes)
  | vector {t : TypeSig} {bytes : List UInt8} (h : Modified BareOpen t bytes) :
    BareOpen (.vector t) (ElementKind.vector.code :: bytes)
  | instantiation {base last : TypeSig} {front args : List TypeSig} {bytes part : List UInt8}
    {parts : List (List UInt8)} (hargs : args = front ++ [last]) (hbase : Bare base bytes)
    (hfront : List.Forall₂ Written front parts) (hlast : Modified BareOpen last part) :
    BareOpen (.instantiation base args)
      (ElementKind.instantiation.code ::
        (bytes ++ (compressedBytes args.length ++ (parts.flatten ++ part))))
  | functionPointer {m : MethodSig} {bytes : List UInt8}
    (h : MethodShape.WrittenOpen Bare BareOpen m bytes) :
    BareOpen (.functionPointer m) (ElementKind.functionPointer.code :: bytes)
  | pinned {t : TypeSig} {bytes : List UInt8} (h : Modified BareOpen t bytes) :
    BareOpen (.pinned t) (ElementKind.pinned.code :: bytes)

/-- It starts with the byte of the type. -/
lemma BareOpen.exists_cons {t : TypeSig} {bytes : List UInt8} (h : BareOpen t bytes) :
    ∃ content, bytes = t.headCode :: content := by
  cases h <;> exact ⟨_, rfl⟩

end TypeSig

/-- The written forms of a parameter, and whether it ends with further arguments. These may be any
bytes behind the mark. -/
inductive ParamSig.WrittenWhole : ParamSig × Bool → List UInt8 → Prop
  | closed {p : ParamSig} {bytes : List UInt8} (h : ParamShape.Written TypeSig.Bare p bytes) :
    ParamSig.WrittenWhole (p, false) bytes
  | ended {p : ParamSig} {bytes : List UInt8} (h : ParamShape.Written TypeSig.BareOpen p bytes)
    (tail : List UInt8) : ParamSig.WrittenWhole (p, true) (bytes ++ sentinel :: tail)

/-- The written forms of a method without further arguments of its own, and whether its return value
and each of its parameters end with further arguments. -/
inductive MethodSig.WrittenWhole (m : MethodSig) : List Bool → List UInt8 → Prop
  | closed {params : List (ParamSig × Bool)} {head : List UInt8} {parts : List (List UInt8)}
    (hhead : MethodShape.Head TypeSig.Bare m.params.length m head)
    (hmap : params.map Prod.fst = m.params)
    (hparams : List.Forall₂ ParamSig.WrittenWhole params parts) :
    MethodSig.WrittenWhole m (false :: params.map Prod.snd) (head ++ parts.flatten)
  | ended {params : List (ParamSig × Bool)} {head : List UInt8} {parts : List (List UInt8)}
    (hhead : MethodShape.Head TypeSig.BareOpen m.params.length m head) (tail : List UInt8)
    (hmap : params.map Prod.fst = m.params)
    (hparams : List.Forall₂ ParamSig.WrittenWhole params parts) :
    MethodSig.WrittenWhole m (true :: params.map Prod.snd)
      (head ++ (sentinel :: tail ++ parts.flatten))

/-- There is one answer for the return value and one for each parameter. -/
lemma MethodSig.WrittenWhole.length_ends {m : MethodSig} {ends : List Bool} {bytes : List UInt8}
    (h : m.WrittenWhole ends bytes) : ends.length = m.params.length + 1 := by
  cases h with
  | closed _ hmap _ => rw [List.length_cons, List.length_map, ← hmap, List.length_map]
  | ended _ _ hmap _ => rw [List.length_cons, List.length_map, ← hmap, List.length_map]

/-! ## Reading up to the mark -/

namespace SignatureReader

/-- The mark before further arguments is next. -/
def AtSentinel (suffix : List UInt8) : Prop :=
  suffix.head? = some sentinel

section Collecting

variable {α : Type} {depth levels n : ℕ} {next : List UInt8 → Prop} {bytes part : List UInt8}

/-- An answer holds for fewer bytes behind it. -/
lemma Answers.of_next {r : SignatureReader α} {a : α} {next' : List UInt8 → Prop}
    (h : r.Answers depth levels next n bytes a) (hnext : ∀ suffix, next' suffix → next suffix) :
    r.Answers depth levels next' n bytes a where
  reads := fun hle s suffix hdepth hsuffix => h.reads hle s suffix hdepth (hnext suffix hsuffix)
  refuses := fun hlt s suffix hdepth hsuffix => h.refuses hlt s suffix hdepth (hnext suffix hsuffix)

/-- Members of a list that are written one behind the other are read one after the other, when the
last one is content with what follows. -/
lemma answers_collectWhile_concat {step : SignatureReader (Option α)}
    {written : α → List UInt8 → Prop} {size : α → ℕ} {front as : List α} {last : α} {extra : ℕ}
    {parts : List (List UInt8)} (has : as = front ++ [last])
    (hparts : List.Forall₂ written front parts)
    (hstep : ∀ a ∈ front, ∀ part, written a part →
      step.Answers depth levels Anything (size a) part (some a))
    (hlast : step.Answers depth levels next (size last) part (some last))
    (hend : Answers (collectWhile step extra) depth levels next 0 [] []) :
    Answers (collectWhile step (as.length + extra)) depth levels next ((as.map size).foldr max 0)
      (parts.flatten ++ part) as := by
  have hone : Answers (collectWhile step (extra + 1)) depth levels next (max (size last) 0)
      (part ++ []) [last] := by
    rw [collectWhile_succ]
    exact answers_bind_of_next hlast (answers_map _ hend) fun _ hsuffix => hsuffix
  have hall := answers_collectWhile_append hparts hstep hone
  have hlength : as.length + extra = front.length + (extra + 1) := by
    rw [has, List.length_append, List.length_singleton]
    omega
  rw [List.append_nil] at hall
  rw [hlength, has, List.map_append, List.foldr_append]
  exact hall

end Collecting

section Params

variable {depth levels : ℕ} {type : SignatureReader TypeSig}

/-- In front of the mark there are no more parameters. -/
lemma answers_paramOrEnd_none :
    (paramOrEnd type).Answers depth levels AtSentinel 0 [] none where
  reads := by
    intro _ s suffix _ hsuffix hrest
    cases suffix with
    | nil => cases hsuffix
    | cons b suffix =>
      cases Option.some.inj hsuffix
      have hpeek : (liftM Reader.peek : SignatureReader UInt8).run s = .ok sentinel s := by
        change ofReader Reader.peek s = _
        rw [ofReader, Reader.run_peek hrest]
      rw [paramOrEnd, EStateM.run_bind, hpeek]
      simp only [if_true]
      rfl
  refuses := fun h => absurd h (Nat.not_lt_zero _)

/-- In front of the mark, nothing more is collected, whatever is announced. -/
lemma answers_collectWhile_at_sentinel (count : ℕ) :
    Answers (collectWhile (paramOrEnd type) count) depth levels AtSentinel 0 [] [] := by
  cases count with
  | zero => exact answers_pure []
  | succ count =>
    rw [collectWhile_succ]
    exact answers_bind_of_next answers_paramOrEnd_none (answers_pure []) fun _ hsuffix => hsuffix

/-- The parameters of a method up to the mark, of which more are announced. -/
lemma answers_collectWhile_params {params : List ParamSig} {parts : List (List UInt8)} (extra : ℕ)
    (htype : ∀ p ∈ params, AnswersBare type depth levels p.type)
    (hclear : ∀ p ∈ params, p.byRef = false → ¬p.type.IsByRef)
    (hparts : List.Forall₂ (ParamShape.Written TypeSig.Bare) params parts) :
    Answers (collectWhile (paramOrEnd type) (params.length + extra)) depth levels AtSentinel
      ((params.map fun p => p.type.nesting).foldr max 0) parts.flatten params := by
  have h : Answers (collectWhile (paramOrEnd type) (params.length + extra)) depth levels AtSentinel
      ((params.map fun p => p.type.nesting).foldr max 0) (parts.flatten ++ []) (params ++ []) :=
    answers_collectWhile_append hparts
      (fun p hp part hpart => answers_paramOrEnd (htype p hp) (hclear p hp) hpart)
      (answers_collectWhile_at_sentinel extra)
  rw [List.append_nil, List.append_nil] at h
  exact h

/-- The type `t` is read up to the mark before the further arguments at its end. -/
abbrev AnswersOpen (type : SignatureReader TypeSig) (depth levels : ℕ) (t : TypeSig) : Prop :=
  AnswersWritten TypeSig.BareOpen type depth levels AtSentinel t

/-- A method is read up to the mark before the further arguments at its end, around any reader that
does so with the types in it. -/
lemma answers_methodOf_open {m : MethodSig} {bytes : List UInt8} (hfits : m.Fits)
    (hreturns : AnswersBare type depth levels m.returns.type)
    (hreturnsOpen : AnswersOpen type depth levels m.returns.type)
    (hparams : ∀ p ∈ m.params, AnswersBare type depth levels p.type)
    (hparamsOpen : ∀ p ∈ m.params, AnswersOpen type depth levels p.type)
    (hbytes : MethodShape.WrittenOpen TypeSig.Bare TypeSig.BareOpen m bytes) :
    (methodOf type).Answers depth levels AtSentinel m.nesting bytes m := by
  cases hbytes with
  | @own extra _ head parts _ hcount hhead hparts =>
    exact answers_methodOf_of_params hfits.genericCount hcount hfits.returns hreturns hhead
      (answers_collectWhile_params extra hparams hfits.params hparts) fun _ _ => trivial
  | @lastParam extra _ front last head part parts hcount hhead hconcat hfront hlast =>
    have hclear := hfits.params
    rw [hconcat, List.forall_mem_append] at hparams hparamsOpen hclear
    refine answers_methodOf_of_params hfits.genericCount hcount hfits.returns hreturns hhead ?_
      fun _ _ => trivial
    refine answers_collectWhile_concat hconcat hfront (fun p hp _ hpart => ?_) ?_
      (answers_collectWhile_at_sentinel extra)
    · exact answers_paramOrEnd (hparams.1 p hp) (hclear.1 p hp) hpart
    · exact answers_paramOrEnd (hparamsOpen.2 last List.mem_cons_self)
        (hclear.2 last List.mem_cons_self) hlast
  | @returns extra _ _ hcount hhead hnil =>
    have hnone : Answers (collectWhile (paramOrEnd type) extra) depth levels AtSentinel
        ((m.params.map fun p => p.type.nesting).foldr max 0) [] m.params := by
      rw [hnil]
      exact answers_collectWhile_at_sentinel extra
    rw [← List.append_nil bytes]
    exact answers_methodOf_of_params hfits.genericCount hcount hfits.returns hreturnsOpen hhead
      hnone fun _ hsuffix => hsuffix

end Params

/-- **Types that end with further arguments are read up to the mark**, at every depth and for every
number of levels that are left.

**Proof sketch.** By induction on why the type fits the format. The last type that is written in it
is read up to the mark by the induction hypothesis, all others whatever follows them. -/
lemma answersWritten_bareOpen {t : TypeSig} (h : t.Storable) :
    ∀ depth levels, AnswersOpen (typeWithin levels) depth levels t := by
  induction h with
  | @pointer t _ ih =>
    refine answersWritten_of_typeOf (fun _ h => h.exists_cons) rfl
      fun depth levels mods bytes hbytes => ?_
    cases hbytes with
    | pointer ht => exact answers_typeOf_kind (answers_bind_pure ((ih _ _).answers_modified ht))
  | @byRef t _ ih =>
    refine answersWritten_of_typeOf (fun _ h => h.exists_cons) rfl
      fun depth levels mods bytes hbytes => ?_
    cases hbytes with
    | byRef ht => exact answers_typeOf_kind (answers_bind_pure ((ih _ _).answers_modified ht))
  | @vector t _ ih =>
    refine answersWritten_of_typeOf (fun _ h => h.exists_cons) rfl
      fun depth levels mods bytes hbytes => ?_
    cases hbytes with
    | vector ht => exact answers_typeOf_kind (answers_bind_pure ((ih _ _).answers_modified ht))
  | @pinned t _ ih =>
    refine answersWritten_of_typeOf (fun _ h => h.exists_cons) rfl
      fun depth levels mods bytes hbytes => ?_
    cases hbytes with
    | pinned ht => exact answers_typeOf_kind (answers_bind_pure ((ih _ _).answers_modified ht))
  | @instantiation base args hnamed hbase hcount hargs _ ihargs =>
    refine answersWritten_of_typeOf (fun _ h => h.exists_cons) (base.nesting_instantiation args)
      fun depth levels mods bytes hbytes => ?_
    cases hbytes with
    | @instantiation _ last front _ bytes part parts hconcat hbytes hfront hlast =>
      rw [hconcat, List.forall_mem_append] at hargs ihargs
      have hend : Answers (collectWhile (some <$> typeWithin levels) 0) depth levels AtSentinel 0 []
          [] :=
        answers_pure []
      refine answers_typeOf_kind (answers_ofKind_instantiation hnamed
        (answers_typeWithin hbase depth levels) hcount hbytes ?_)
      refine answers_collectWhile_concat hconcat hfront (fun t ht _ hpart => ?_) ?_ hend
      · exact answers_map some
          ((answers_typeWithin (hargs.1 t ht) depth levels).answers_modified hpart)
      · exact answers_map some
          ((ihargs.2 last List.mem_cons_self depth levels).answers_modified hlast)
  | @functionPointer m hfits hreturns hparams ihreturns ihparams =>
    refine answersWritten_of_typeOf (fun _ h => h.exists_cons) (TypeSig.nesting_functionPointer m)
      fun depth levels mods bytes hbytes => ?_
    cases hbytes with
    | functionPointer hm =>
      exact answers_typeOf_kind (answers_bind_pure (answers_methodOf_open hfits
        (answers_typeWithin hreturns depth levels) (ihreturns depth levels)
        (fun p hp => answers_typeWithin (hparams p hp) depth levels)
        (fun p hp => ihparams p hp depth levels) hm))
  | _ =>
    refine answersWritten_of_typeOf (fun _ h => h.exists_cons) rfl
      fun depth levels mods bytes hbytes => ?_
    cases hbytes

/-- The signature of a type that ends with further arguments is read up to the mark at the outermost
level. -/
lemma answersOpen_type {t : TypeSig} (h : t.Storable) : AnswersOpen type 0 (levelsAt 0) t :=
  (answersWritten_bareOpen h 0 (levelsAt 0)).answersWritten_type

/-! ## Methods -/

/-- **Of parameters in a row, those up to the first one that ends with further arguments are
read.** What is not read starts with the mark, if there is such a parameter.

**Proof sketch.** By induction on the parameters. A parameter that ends with further arguments is
read up to the mark, and there the loop ends; any other is read, whatever follows it. -/
lemma exists_answers_params {type : SignatureReader TypeSig} {depth levels : ℕ}
    {params : List (ParamSig × Bool)} {parts : List (List UInt8)} (suffix : List UInt8)
    (hparts : List.Forall₂ ParamSig.WrittenWhole params parts)
    (htype : ∀ p ∈ params.map Prod.fst, AnswersBare type depth levels p.type)
    (htypeOpen : ∀ p ∈ params.map Prod.fst, AnswersOpen type depth levels p.type)
    (hclear : ∀ p ∈ params.map Prod.fst, p.byRef = false → ¬p.type.IsByRef) :
    ∃ front back, parts.flatten ++ suffix = front ++ back ∧
      Answers (collectWhile (paramOrEnd type) params.length) depth levels (· = back)
        ((((params.map Prod.fst).take ((params.map Prod.snd).idxOf true + 1)).map
          fun p => p.type.nesting).foldr max 0) front
        ((params.map Prod.fst).take ((params.map Prod.snd).idxOf true + 1)) := by
  induction hparts with
  | nil => exact ⟨[], suffix, rfl, answers_pure []⟩
  | @cons e part params parts hpart _ ih =>
    rw [List.map_cons, List.forall_mem_cons] at htype htypeOpen hclear
    cases hpart with
    | @closed p bytes hwritten =>
      obtain ⟨front, back, hsplit, hrest⟩ := ih htype.2 htypeOpen.2 hclear.2
      refine ⟨part ++ front, back, ?_, ?_⟩
      · rw [List.flatten_cons, List.append_assoc, List.append_assoc, hsplit]
      · rw [List.length_cons, collectWhile_succ, List.map_cons, List.map_cons,
          List.idxOf_cons_ne _ Bool.false_ne_true]
        exact answers_bind (answers_paramOrEnd htype.1 hclear.1 hwritten) (answers_map _ hrest)
    | @ended p bytes hwritten tail =>
      refine ⟨bytes ++ [], sentinel :: tail ++ parts.flatten ++ suffix, ?_, ?_⟩
      · rw [List.flatten_cons, List.append_assoc, List.append_assoc, List.append_nil,
          List.append_assoc]
      · rw [List.length_cons, collectWhile_succ, List.map_cons, List.map_cons, List.idxOf_cons_self]
        refine (answers_bind_of_next (answers_paramOrEnd htypeOpen.1 hclear.1 hwritten)
          (answers_map _ (answers_collectWhile_at_sentinel params.length))
          fun _ hsuffix => hsuffix).of_next ?_
        rintro _ rfl
        rfl

/-- A method announces the number that is written before its return value. -/
lemma runOn_announcedCount {written : TypeSig → List UInt8 → Prop} {m : MethodSig} {count : ℕ}
    {head : List UInt8} (hgeneric : m.genericCount < 2 ^ 29) (hcount : count < 2 ^ 29)
    (hhead : MethodShape.Head written count m head) (suffix : List UInt8) :
    announcedCount.runOn ⟨(head ++ suffix).toArray⟩ = .ok count := by
  cases hhead with
  | @intro convention isGeneric _ _ back hconvention hvararg hannounced hback =>
  obtain ⟨-, hbit, -, -⟩ :=
    toNat_conventionByte hconvention isGeneric m.hasThis m.explicitThis
  have hreads : announcedCount.Reads
      (conventionByte convention isGeneric m.hasThis m.explicitThis ::
        (genericBytes isGeneric m.genericCount ++ compressedBytes count)) count := by
    refine Reader.reads_byte_bind ?_
    rw [hbit]
    cases isGeneric with
    | true =>
      exact Reader.reads_bind (Reader.reads_compressedBytes hgeneric)
        (Reader.reads_compressedBytes hcount)
    | false => exact Reader.reads_compressedBytes hcount
  have hrun := hreads (Cursor.ofBytes ⟨_⟩) (back ++ suffix) rfl
  rw [List.cons_append, List.append_assoc] at hrun
  rw [List.cons_append, List.append_assoc, List.append_assoc, Reader.runOn, hrun]

/-- What a reader answers at the outermost level, as a statement about blobs. -/
lemma Answers.runOn_eq_ok {α : Type} {r : SignatureReader α} {next : List UInt8 → Prop}
    {nesting : ℕ} {bytes suffix : List UInt8} {a : α}
    (h : r.Answers 0 (levelsAt 0) next nesting bytes a) (hnesting : nesting < nestingLimit)
    (hsuffix : next suffix) : r.runOn ⟨(bytes ++ suffix).toArray⟩ = .ok a := by
  have hle : nesting ≤ levelsAt 0 := Nat.le_of_lt_succ hnesting
  rw [runOn, h.reads hle (.ofBlob ⟨(bytes ++ suffix).toArray⟩) suffix rfl hsuffix rfl]

/-- What is written of a method announces the number of its parameters, whether they are read or
not. -/
lemma runOn_announcedCount_of_writtenWhole {m : MethodSig} {ends : List Bool} {bytes : List UInt8}
    (h : m.Storable) (hbytes : m.WrittenWhole ends bytes) (suffix : List UInt8) :
    announcedCount.runOn ⟨(bytes ++ suffix).toArray⟩ = .ok m.params.length := by
  cases hbytes with
  | closed hhead _ _ =>
    rw [List.append_assoc]
    exact runOn_announcedCount h.fits.genericCount h.fits.paramCount hhead _
  | ended hhead _ _ _ =>
    rw [List.append_assoc]
    exact runOn_announcedCount h.fits.genericCount h.fits.paramCount hhead _

/-- The greatest of the first few numbers is no greater than that of all. -/
lemma foldr_max_take_le (numbers : List ℕ) (k : ℕ) :
    (numbers.take k).foldr max 0 ≤ numbers.foldr max 0 := by
  induction numbers generalizing k with
  | nil => rw [List.take_nil]
  | cons n numbers ih =>
    cases k with
    | zero => exact Nat.zero_le _
    | succ k => exact max_le_max (Nat.le_refl n) (ih k)

/-- With fewer parameters a method is nested no deeper. -/
lemma nesting_take_le (m : MethodSig) (k : ℕ) :
    MethodSig.nesting { m with params := m.params.take k } ≤ m.nesting := by
  rw [MethodSig.nesting, MethodSig.nesting, List.map_take]
  exact max_le_max (Nat.le_refl _) (foldr_max_take_le _ k)

/-- **A method ends behind the first of its return value and parameters that ends with further
arguments.** The parameters behind it are not there.

**Proof sketch.** The return value is read up to the mark if it ends with further arguments, and
then no parameter is read. Otherwise it is read whatever follows it, and the parameters are read up
to the first one that ends with further arguments. -/
lemma ofBlob_of_writtenWhole {m : MethodSig} {ends : List Bool} {bytes : List UInt8}
    (h : m.Storable) (hnesting : m.nesting < nestingLimit) (hbytes : m.WrittenWhole ends bytes)
    (suffix : List UInt8) :
    MethodSig.ofBlob ⟨(bytes ++ suffix).toArray⟩ =
      .ok { m with params := m.params.take (ends.idxOf true) } := by
  have hlimit : MethodSig.nesting { m with params := m.params.take (ends.idxOf true) } <
      nestingLimit :=
    (nesting_take_le m _).trans_lt hnesting
  cases hbytes with
  | @closed params head parts hhead hmap hparts =>
    obtain ⟨front, back, hsplit, hparams⟩ :=
      exists_answers_params suffix hparts (fun p hp => answersBare_type (h.params p (hmap ▸ hp)))
        (fun p hp => answersOpen_type (h.params p (hmap ▸ hp)))
        (fun p hp => h.fits.params p (hmap ▸ hp))
    have hlength : params.length = m.params.length := by
      rw [← hmap, List.length_map]
    rw [hmap, hlength] at hparams
    rw [List.idxOf_cons_ne _ Bool.false_ne_true] at hlimit ⊢
    have hmethod : method.Answers 0 (levelsAt 0) (· = back) _ (head ++ front)
        { m with params := m.params.take ((params.map Prod.snd).idxOf true + 1) } :=
      answers_methodOf_of_params h.fits.genericCount h.fits.paramCount h.fits.returns
        (answersBare_type h.returns) (hhead.withParams _) hparams fun _ _ => trivial
    rw [List.append_assoc, hsplit, ← List.append_assoc]
    exact hmethod.runOn_eq_ok hlimit rfl
  | @ended params head parts hhead tail hmap hparts =>
    rw [List.idxOf_cons_self] at hlimit ⊢
    have hmethod : method.Answers 0 (levelsAt 0) AtSentinel _ (head ++ [])
        { m with params := [] } :=
      answers_methodOf_of_params h.fits.genericCount h.fits.paramCount h.fits.returns
        (answersOpen_type h.returns) (hhead.withParams [])
        (answers_collectWhile_at_sentinel m.params.length) fun _ hsuffix => hsuffix
    rw [List.append_nil] at hmethod
    rw [List.append_assoc]
    exact hmethod.runOn_eq_ok hlimit rfl

/-- A list is kept whole up to the first mark exactly if only the last of the marks may be set. -/
lemma take_idxOf_eq_self_iff {α : Type} {as : List α} {ends : List Bool}
    (hlength : ends.length = as.length + 1) :
    as.take (ends.idxOf true) = as ↔ true ∉ ends.dropLast := by
  rw [List.take_eq_self_iff, List.dropLast_eq_take, hlength, Nat.add_sub_cancel]
  by_cases hmem : true ∈ ends
  · rw [List.mem_take_iff_idxOf_lt hmem, Nat.not_lt]
  · have hidx : ends.idxOf true = ends.length := List.idxOf_eq_length hmem
    rw [hidx, hlength]
    exact iff_of_true (Nat.le_succ _) fun h => hmem (List.mem_of_mem_take h)

/-- **Parameters end at the first mark before further arguments.** A method has as many parameters
as it announces, unless it has fewer and the mark is next. Of a method whose return value and
parameters may end with further arguments, at any depth, the parameters up to the first such end are
read, in their order and whatever follows. These are all of them exactly if nothing before the last
parameter ends so.

**Proof sketch.** The first part is read off the loop over the parameters. In the second, what ends
with further arguments is read up to the mark before these, and there the loop around it ends. -/
theorem params_end_at_sentinel (blob : ByteArray) :
    (∀ m s', method.run (.ofBlob blob) = .ok m s' →
      ∃ count, announcedCount.runOn blob = .ok count ∧
        (m.params.length = count ∨
          m.params.length < count ∧ s'.cursor.rest.head? = some sentinel)) ∧
    ∀ m ends bytes suffix, MethodSig.Storable m → m.nesting < nestingLimit →
      m.WrittenWhole ends bytes → blob = ⟨(bytes ++ suffix).toArray⟩ →
      announcedCount.runOn blob = .ok m.params.length ∧
        MethodSig.ofBlob blob = .ok { m with params := m.params.take (ends.idxOf true) } ∧
        (MethodSig.ofBlob blob = .ok m ↔ true ∉ ends.dropLast) := by
  constructor
  · intro m s' h
    obtain ⟨count, c, hcount, hlength⟩ := length_of_run_methodOf h
    refine ⟨count, ?_, hlength⟩
    change announcedCount.run (Cursor.ofBytes blob) = _ at hcount
    rw [Reader.runOn, hcount]
  · rintro m ends bytes suffix hm hnesting hbytes rfl
    have hread := ofBlob_of_writtenWhole hm hnesting hbytes suffix
    refine ⟨runOn_announcedCount_of_writtenWhole hm hbytes suffix, hread, ?_⟩
    rw [hread, ← take_idxOf_eq_self_iff hbytes.length_ends]
    constructor
    · intro h
      exact congrArg MethodShape.params (Except.ok.inj h)
    · intro h
      rw [h]

/-- A function with a parameter of its own, which takes further arguments. -/
def callback : MethodSig :=
  ⟨false, false, true, 0, ⟨false, .primitive .void⟩, [⟨false, .primitive .i4⟩]⟩

/-- A method with two parameters, a pointer to `callback` and a number. -/
def callbackAndNumber : MethodSig where
  hasThis := false
  explicitThis := false
  vararg := false
  genericCount := 0
  returns := ⟨false, .primitive .void⟩
  params := [⟨false, .functionPointer callback⟩, ⟨false, .primitive .i4⟩]

/-- The bytes of `callbackAndNumber`, with a string as a further argument of `callback`. -/
def callbackAndNumberBytes : List UInt8 :=
  [0x00, 0x02, 0x01, 0x1B, 0x05, 0x02, 0x01, 0x08, 0x41, 0x0E, 0x08]

lemma storable_callbackAndNumber : callbackAndNumber.Storable := by
  have hpointer : TypeSig.Storable (.functionPointer callback) := by
    refine .functionPointer ⟨by decide, by decide, ?_, ?_⟩ (.primitive .void) ?_
    · rintro - ⟨target, h⟩
      cases h
    · rintro p hp - ⟨target, h⟩
      rw [List.mem_singleton.mp hp] at h
      cases h
    · intro p hp
      rw [List.mem_singleton.mp hp]
      exact .primitive .i4
  refine ⟨⟨by decide, by decide, ?_, ?_⟩, .primitive .void, ?_⟩
  · rintro - ⟨target, h⟩
    cases h
  · rintro p hp - ⟨target, h⟩
    simp only [callbackAndNumber, List.mem_cons, List.not_mem_nil, or_false] at hp
    rcases hp with rfl | rfl <;> cases h
  · intro p hp
    simp only [callbackAndNumber, List.mem_cons, List.not_mem_nil, or_false] at hp
    rcases hp with rfl | rfl
    · exact hpointer
    · exact .primitive .i4

lemma writtenWhole_callbackAndNumberBytes :
    callbackAndNumber.WrittenWhole [false, true, false] callbackAndNumberBytes := by
  have hvoid : ParamShape.Written TypeSig.Bare ⟨false, .primitive .void⟩ [0x01] :=
    .intro [] (.of_bare (.primitive .void))
  have hnumber : ParamShape.Written TypeSig.Bare ⟨false, .primitive .i4⟩ [0x08] :=
    .intro [] (.of_bare (.primitive .i4))
  have hcallback : MethodShape.WrittenOpen TypeSig.Bare TypeSig.BareOpen callback
      [0x05, 0x02, 0x01, 0x08] :=
    @MethodShape.WrittenOpen.own _ _ _ 1 callback _ [[0x08]] (by decide) (by decide)
      (@MethodShape.Head.intro TypeSig TypeSig.Bare 5 false 2 callback [0x01] (by decide) rfl
        (fun _ => rfl) hvoid) (.cons hnumber .nil)
  have hopen : TypeSig.BareOpen (.functionPointer callback) [0x1B, 0x05, 0x02, 0x01, 0x08] :=
    .functionPointer hcallback
  have hparam : ParamShape.Written TypeSig.BareOpen ⟨false, .functionPointer callback⟩
      [0x1B, 0x05, 0x02, 0x01, 0x08] :=
    .intro [] (.of_bare hopen)
  have hpointer : ParamSig.WrittenWhole (⟨false, .functionPointer callback⟩, true)
      [0x1B, 0x05, 0x02, 0x01, 0x08, 0x41, 0x0E] :=
    .ended hparam [0x0E]
  have hhead : MethodShape.Head TypeSig.Bare 2 callbackAndNumber [0x00, 0x02, 0x01] :=
    @MethodShape.Head.intro TypeSig TypeSig.Bare 0 false 2 callbackAndNumber [0x01] (by decide) rfl
      (fun _ => rfl) hvoid
  exact @MethodSig.WrittenWhole.closed callbackAndNumber
    [(⟨false, .functionPointer callback⟩, true), (⟨false, .primitive .i4⟩, false)] _
    [[0x1B, 0x05, 0x02, 0x01, 0x08, 0x41, 0x0E], [0x08]] hhead rfl
    (.cons hpointer (.cons (.closed hnumber) .nil))

/-- The number of `callbackAndNumber` is lost, by the general law: two parameters are announced, and
one is read. -/
theorem params_end_at_sentinel_callbackAndNumber :
    callbackAndNumber.Storable ∧ callbackAndNumber.nesting < nestingLimit ∧
      callbackAndNumber.WrittenWhole [false, true, false] callbackAndNumberBytes ∧
      announcedCount.runOn ⟨callbackAndNumberBytes.toArray⟩ = .ok 2 ∧
      MethodSig.ofBlob ⟨callbackAndNumberBytes.toArray⟩ =
        .ok { callbackAndNumber with params := callbackAndNumber.params.take 1 } := by
  have hnesting : callbackAndNumber.nesting < nestingLimit := by decide
  obtain ⟨hcount, hread, -⟩ := (params_end_at_sentinel ⟨callbackAndNumberBytes.toArray⟩).2
    callbackAndNumber [false, true, false] callbackAndNumberBytes [] storable_callbackAndNumber
    hnesting writtenWhole_callbackAndNumberBytes (by rw [List.append_nil])
  exact ⟨storable_callbackAndNumber, hnesting, writtenWhole_callbackAndNumberBytes, hcount, hread⟩

/-- **A parameter behind a function pointer with further arguments is lost**: not every method
without further arguments has as many parameters as it announces. -/
theorem lost_param_behind_functionPointer :
    ¬∀ blob m, MethodSig.ofBlob blob = .ok m → m.vararg = false →
      announcedCount.runOn blob = .ok m.params.length := by
  intro h
  have hread := ofBlob_of_writtenWhole storable_callbackAndNumber (by decide)
    writtenWhole_callbackAndNumberBytes []
  have hcount := runOn_announcedCount_of_writtenWhole storable_callbackAndNumber
    writtenWhole_callbackAndNumberBytes []
  have hone := h _ _ hread rfl
  rw [hcount] at hone
  cases hone

end SignatureReader

end TypeInventory
