import TypeInventory.Proofs.Signature.Encoding

set_option relaxedAutoImplicit false
set_option autoImplicit false

/-!
# Reading back written signatures

A reader of signatures that may go `levels` levels deep answers to written bytes in one of two ways.
If what was written is nested at most that deep, it gives the signature and stops right behind the
bytes; otherwise it fails with `Fault.nesting`. `SignatureReader.Answers` says both at once, so that
one walk over the format proves both: in a row of readers the greatest nesting counts, and a type is
nested one level deeper than what it is made of.

## Main definitions

* `SignatureReader.Answers` — how a reader of signatures answers to written bytes.
* `SignatureReader.Decodes` — how it answers to a blob that starts with them.

## Main results

* `SignatureReader.answers_bind`, `SignatureReader.answers_collectWhile` — readers in a row.
* `SignatureReader.answers_param`, `SignatureReader.answers_methodOf` — parameters and methods,
  around any way of writing types.
* `SignatureReader.answers_typeWithin` — types.
* `SignatureReader.decoding_undoes_encoding` — reading the signature of a type, a field or a method
  undoes writing it.
-/

namespace TypeInventory

/-! ## Readers of bytes -/

namespace Reader

variable {α β : Type}

/-- A byte is passed over. -/
lemma reads_skip_one (b : UInt8) : (skip 1).Reads [b] () := by
  intro c suffix h
  refine run_skip ?_
  rw [h, List.length_append, List.length_singleton]
  omega

/-- Members of a list that are written one behind the other are read one after the other. -/
lemma reads_collect {step : Reader α} {bytes : β → List UInt8} {bs : List β}
    (h : ∀ b ∈ bs, ∃ a, step.Reads (bytes b) a) :
    ∃ as, Reader.Reads (collect step bs.length) (bs.flatMap bytes) as := by
  induction bs with
  | nil => exact ⟨[], reads_pure []⟩
  | cons b bs ih =>
    obtain ⟨a, ha⟩ := h b List.mem_cons_self
    obtain ⟨as, has⟩ := ih fun b' hb' => h b' (List.mem_cons_of_mem b hb')
    refine ⟨a :: as, ?_⟩
    rw [List.length_cons, collect_succ, List.flatMap_cons]
    refine reads_bind ha ?_
    rw [map_eq_pure_bind, ← List.append_nil (bs.flatMap bytes)]
    exact reads_bind has (reads_pure _)

/-- The shape of an array keeps its rank alone. -/
lemma reads_arrayShape {rank : ℕ} {sizes : List ℕ} {bounds : List ℤ} (hrank : rank < 2 ^ 29)
    (hsizes : sizes.length < 2 ^ 29 ∧ ∀ n ∈ sizes, n < 2 ^ 29)
    (hbounds : bounds.length < 2 ^ 29 ∧ ∀ i ∈ bounds, -0x10000000 ≤ i ∧ i < 0x10000000) :
    SignatureReader.arrayShape.Reads (arrayShapeBytes rank sizes bounds) rank := by
  obtain ⟨_, hreadSizes⟩ := reads_collect fun n hn =>
    ⟨n, reads_compressedBytes (hsizes.2 n hn)⟩
  obtain ⟨_, hreadBounds⟩ := reads_collect fun i hi =>
    reads_signedCompressedBytes (hbounds.2 i hi)
  refine reads_bind (reads_compressedBytes hrank) ?_
  refine reads_bind (reads_compressedBytes hsizes.1) ?_
  refine reads_bind hreadSizes ?_
  refine reads_bind (reads_compressedBytes hbounds.1) ?_
  rw [← List.append_nil (bounds.flatMap _)]
  exact reads_bind hreadBounds (reads_pure rank)

end Reader

/-! ## Modifiers -/

/-- A modifier has at least one byte. -/
lemma length_le_length_modifierBytes (mods : List Modifier) :
    mods.length ≤ (modifierBytes mods).length := by
  induction mods with
  | nil => exact Nat.le_refl 0
  | cons m mods ih =>
    rw [modifierBytes, List.flatMap_cons, List.length_append, ← modifierBytes, Modifier.bytes,
      List.length_cons, List.length_cons]
    omega

/-- A byte is there. -/
lemma Cursor.hasMore_of_rest_cons {c : Cursor} {b : UInt8} {suffix : List UInt8}
    (h : c.rest = b :: suffix) : c.hasMore = true := by
  obtain ⟨hpos, -⟩ := exists_of_rest_cons h
  exact decide_eq_true hpos

namespace SignatureReader

/-- In front of the mark of a modifier, the mark is passed over and its token read. -/
lemma run_modifiersUpTo_of_mark {n : ℕ} {c : Cursor} {b : UInt8} {suffix : List UInt8}
    (hb : b = requiredModifier ∨ b = optionalModifier) (h : c.rest = b :: suffix) :
    (modifiersUpTo (n + 1)).run c =
      (do let _ ← Reader.compressedToken; modifiersUpTo n : Reader Unit).run (c.advance 1) := by
  have hskip : (Reader.skip 1).run c = .ok () (c.advance 1) := by
    refine Reader.run_skip ?_
    rw [h, List.length_cons]
    omega
  rw [modifiersUpTo, EStateM.run_bind, EStateM.run_get]
  simp only [Cursor.hasMore_of_rest_cons h, if_true]
  rw [EStateM.run_bind, Reader.run_peek h]
  simp only
  rw [if_pos hb, EStateM.run_bind, hskip]

/-- In front of a byte that is the mark of no modifier, nothing is passed over. -/
lemma run_modifiersUpTo_of_not_mark {c : Cursor} {b : UInt8} {suffix : List UInt8}
    (hb : ¬(b = requiredModifier ∨ b = optionalModifier)) (h : c.rest = b :: suffix) (n : ℕ) :
    (modifiersUpTo n).run c = .ok () c := by
  cases n with
  | zero => rfl
  | succ n =>
    rw [modifiersUpTo, EStateM.run_bind, EStateM.run_get]
    simp only [Cursor.hasMore_of_rest_cons h, if_true]
    rw [EStateM.run_bind, Reader.run_peek h]
    simp only
    rw [if_neg hb]
    rfl

/-- Modifiers are passed over up to a byte that is the mark of none.

**Proof sketch.** By induction on the modifiers. In front of one, its mark is passed over and its
token read; in front of the byte behind the last one, the loop ends. -/
lemma run_modifiersUpTo {b : UInt8} {suffix : List UInt8}
    (hb : ¬(b = requiredModifier ∨ b = optionalModifier)) (mods : List Modifier) :
    ∀ n c, mods.length ≤ n → c.rest = modifierBytes mods ++ b :: suffix →
      (modifiersUpTo n).run c = .ok () (c.advance (modifierBytes mods).length) := by
  induction mods with
  | nil =>
    intro n c _ h
    exact run_modifiersUpTo_of_not_mark hb h n
  | cons m mods ih =>
    intro n c hn h
    obtain ⟨n, rfl⟩ := Nat.exists_eq_add_of_le' (show 1 ≤ n by rw [List.length_cons] at hn; omega)
    rw [modifierBytes, List.flatMap_cons, ← modifierBytes, Modifier.bytes, List.cons_append,
      List.cons_append] at h
    have htoken : (c.advance 1).rest =
        m.token.typeBytes ++ (modifierBytes mods ++ b :: suffix) := by
      rw [Cursor.rest_advance, h, List.drop_succ_cons, List.drop_zero, List.append_assoc]
    rw [run_modifiersUpTo_of_mark m.mark_eq h, EStateM.run_bind,
      Reader.reads_typeBytes m.namesType _ _ htoken]
    simp only
    rw [ih n _ (Nat.le_of_succ_le_succ hn) (Cursor.rest_advance_of_append htoken),
      Cursor.advance_advance, Cursor.advance_advance, modifierBytes, modifierBytes,
      List.flatMap_cons, List.length_append, Modifier.bytes, List.length_cons]
    congr 2
    omega

/-- All modifiers are passed over. -/
lemma run_modifiers {c : Cursor} {b : UInt8} {suffix : List UInt8} {mods : List Modifier}
    (hb : ¬(b = requiredModifier ∨ b = optionalModifier))
    (h : c.rest = modifierBytes mods ++ b :: suffix) :
    modifiers.run c = .ok () (c.advance (modifierBytes mods).length) := by
  have hlength : mods.length ≤ c.remaining := by
    have hmods := length_le_length_modifierBytes mods
    rw [Cursor.remaining_eq, h, List.length_append]
    omega
  rw [modifiers, EStateM.run_bind, EStateM.run_get]
  exact run_modifiersUpTo hb mods _ c hlength h

/-! ## Answers -/

end SignatureReader

/-- The cursor `n` bytes further on, in the same types. -/
def SignatureCursor.advance (s : SignatureCursor) (n : ℕ) : SignatureCursor :=
  ⟨s.cursor.advance n, s.depth⟩

namespace SignatureReader

variable {α β : Type}

/-- How a reader at depth `depth` that may go `levels` levels deeper answers to bytes in which `a`
was written and is nested `nesting` levels deep, with such bytes behind them as `next` allows: it
gives `a` and stops behind its own bytes, or fails because that is too deep. -/
structure Answers (r : SignatureReader α) (depth levels : ℕ) (next : List UInt8 → Prop)
    (nesting : ℕ) (bytes : List UInt8) (a : α) : Prop where
  reads : nesting ≤ levels → ∀ s suffix, s.depth = depth → next suffix →
    s.cursor.rest = bytes ++ suffix → r.run s = .ok a (s.advance bytes.length)
  refuses : levels < nesting → ∀ s suffix, s.depth = depth → next suffix →
    s.cursor.rest = bytes ++ suffix → ∃ s', r.run s = .error .nesting s'

/-- Any bytes. -/
def Anything (_ : List UInt8) : Prop :=
  True

variable {depth levels n : ℕ} {next : List UInt8 → Prop} {bytes : List UInt8} {a : α} {b : β}

/-- A value needs no bytes and no levels. -/
lemma answers_pure (a : α) : (pure a : SignatureReader α).Answers depth levels next 0 [] a where
  reads := fun _ _ _ _ _ _ => rfl
  refuses := fun h => absurd h (Nat.not_lt_zero _)

/-- Readers in a row answer to what was written in a row; the greater nesting counts. The first one
must be content with what follows its own bytes. -/
lemma answers_bind_of_next {x : SignatureReader α} {f : α → SignatureReader β} {m : ℕ}
    {front back : List UInt8} {next' : List UInt8 → Prop}
    (hx : x.Answers depth levels next' m front a) (hf : (f a).Answers depth levels next n back b)
    (hnext : ∀ suffix, next suffix → next' (back ++ suffix)) :
    (x >>= f).Answers depth levels next (max m n) (front ++ back) b where
  reads := by
    intro hle s suffix hdepth hsuffix h
    rw [List.append_assoc] at h
    have hback := hf.reads (by omega) (s.advance front.length) suffix hdepth hsuffix
      (Cursor.rest_advance_of_append h)
    rw [EStateM.run_bind, hx.reads (by omega) s _ hdepth (hnext suffix hsuffix) h]
    simp only
    rw [hback, SignatureCursor.advance, SignatureCursor.advance, SignatureCursor.advance,
      Cursor.advance_advance, List.length_append]
  refuses := by
    intro hlt s suffix hdepth hsuffix h
    rw [List.append_assoc] at h
    rw [EStateM.run_bind]
    by_cases hfront : levels < m
    · obtain ⟨s', hs'⟩ := hx.refuses hfront s _ hdepth (hnext suffix hsuffix) h
      exact ⟨s', by rw [hs']⟩
    · obtain ⟨s', hs'⟩ := hf.refuses (by omega) (s.advance front.length) suffix hdepth hsuffix
        (Cursor.rest_advance_of_append h)
      refine ⟨s', ?_⟩
      rw [hx.reads (Nat.not_lt.mp hfront) s _ hdepth (hnext suffix hsuffix) h]
      exact hs'

/-- The same for a first reader that is content with anything. -/
lemma answers_bind {x : SignatureReader α} {f : α → SignatureReader β} {m : ℕ}
    {front back : List UInt8} (hx : x.Answers depth levels Anything m front a)
    (hf : (f a).Answers depth levels next n back b) :
    (x >>= f).Answers depth levels next (max m n) (front ++ back) b :=
  answers_bind_of_next hx hf fun _ _ => trivial

/-- What is made of a value needs no bytes and no levels. -/
lemma answers_map {x : SignatureReader α} (f : α → β)
    (hx : x.Answers depth levels next n bytes a) :
    (f <$> x).Answers depth levels next n bytes (f a) := by
  rw [map_eq_pure_bind, ← Nat.max_zero n, ← List.append_nil bytes]
  exact answers_bind_of_next hx (answers_pure (f a)) fun _ hsuffix => hsuffix

/-- A value that is made at the end. -/
lemma answers_bind_pure {x : SignatureReader α} {f : α → β}
    (hx : x.Answers depth levels next n bytes a) :
    (x >>= fun a => pure (f a)).Answers depth levels next n bytes (f a) := by
  rw [← map_eq_pure_bind]
  exact answers_map f hx

/-- A reader of bytes in front of another reader needs no levels. It may depend on what is written
behind its own bytes. -/
lemma answers_liftM_bind_of_run {r : Reader α} {f : α → SignatureReader β}
    {front back : List UInt8}
    (hr : ∀ c suffix, c.rest = front ++ (back ++ suffix) → r.run c = .ok a (c.advance front.length))
    (hf : (f a).Answers depth levels next n back b) :
    (liftM r >>= f).Answers depth levels next n (front ++ back) b := by
  have hrun : ∀ (s : SignatureCursor) (suffix : List UInt8),
      s.cursor.rest = front ++ (back ++ suffix) →
      (liftM r >>= f).run s = (f a).run (s.advance front.length) := by
    intro s suffix h
    have hlift : (liftM r : SignatureReader α).run s = .ok a (s.advance front.length) := by
      change ofReader r s = _
      rw [ofReader, hr s.cursor suffix h]
      rfl
    rw [EStateM.run_bind, hlift]
  constructor
  · intro hle s suffix hdepth hsuffix h
    rw [List.append_assoc] at h
    rw [hrun s suffix h, hf.reads hle (s.advance front.length) suffix hdepth hsuffix
      (Cursor.rest_advance_of_append h), SignatureCursor.advance, SignatureCursor.advance,
      SignatureCursor.advance, Cursor.advance_advance, List.length_append]
  · intro hlt s suffix hdepth hsuffix h
    rw [List.append_assoc] at h
    rw [hrun s suffix h]
    exact hf.refuses hlt _ suffix hdepth hsuffix (Cursor.rest_advance_of_append h)

/-- A reader of bytes in front of another reader. -/
lemma answers_liftM_bind {r : Reader α} {f : α → SignatureReader β} {front back : List UInt8}
    (hr : r.Reads front a) (hf : (f a).Answers depth levels next n back b) :
    (liftM r >>= f).Answers depth levels next n (front ++ back) b :=
  answers_liftM_bind_of_run (fun c suffix h => hr c (back ++ suffix) h) hf

/-- A byte in front of another reader. -/
lemma answers_byte_bind {f : UInt8 → SignatureReader β} {byte : UInt8}
    (hf : (f byte).Answers depth levels next n bytes b) :
    (liftM Reader.byte >>= f).Answers depth levels next n (byte :: bytes) b :=
  answers_liftM_bind (Reader.reads_byte byte) hf

/-- A value that is made of what bytes say. -/
lemma answers_liftM_bind_pure {r : Reader α} {f : α → β} (hr : r.Reads bytes a) :
    (liftM r >>= fun a => (pure (f a) : SignatureReader β)).Answers depth levels next 0 bytes
      (f a) := by
  rw [← List.append_nil bytes]
  exact answers_liftM_bind hr (answers_pure (f a))

/-- A look at the next byte. -/
lemma answers_peek_bind {f : UInt8 → SignatureReader β} {byte : UInt8} {content : List UInt8}
    (hbytes : bytes = byte :: content) (hf : (f byte).Answers depth levels next n bytes b) :
    (liftM Reader.peek >>= f).Answers depth levels next n bytes b := by
  have hpeek : ∀ c suffix, c.rest = [] ++ (bytes ++ suffix) →
      Reader.peek.run c = .ok byte (c.advance ([] : List UInt8).length) := by
    intro c suffix h
    rw [hbytes] at h
    exact Reader.run_peek h
  exact answers_liftM_bind_of_run hpeek hf

/-- Modifiers in front of a byte that is the mark of none. -/
lemma answers_modifiers_bind {f : Unit → SignatureReader β} {mods : List Modifier} {byte : UInt8}
    {content : List UInt8} (hbytes : bytes = byte :: content)
    (hbyte : ¬(byte = requiredModifier ∨ byte = optionalModifier))
    (hf : (f ()).Answers depth levels next n bytes b) :
    (liftM modifiers >>= f).Answers depth levels next n (modifierBytes mods ++ bytes) b := by
  refine answers_liftM_bind_of_run ?_ hf
  intro c suffix h
  rw [hbytes] at h
  exact run_modifiers hbyte h

/-- One level deeper. -/
lemma answers_nested {body : SignatureReader α}
    (h : body.Answers (depth + 1) levels next n bytes a) :
    (nested body).Answers depth (levels + 1) next (n + 1) bytes a where
  reads := by
    intro hle s suffix hdepth hsuffix hrest
    have hbody := h.reads (Nat.le_of_succ_le_succ hle) ⟨s.cursor, s.depth + 1⟩ suffix
      (congrArg (· + 1) hdepth) hsuffix hrest
    change nested body s = _
    rw [nested, hbody]
    rfl
  refuses := by
    intro hlt s suffix hdepth hsuffix hrest
    obtain ⟨s', hs'⟩ := h.refuses (Nat.lt_of_succ_lt_succ hlt) ⟨s.cursor, s.depth + 1⟩ suffix
      (congrArg (· + 1) hdepth) hsuffix hrest
    refine ⟨⟨s'.cursor, s'.depth - 1⟩, ?_⟩
    change nested body s = _
    rw [nested, hs']

/-- No level is left. -/
lemma answers_refuse (h : 0 < n) :
    (refuse : SignatureReader α).Answers depth 0 next n bytes a where
  reads := fun hle => absurd hle (Nat.not_le.mpr h)
  refuses := fun _ _ _ _ _ _ => ⟨_, rfl⟩

/-- Members of a list that are written one behind the other are read one after the other, in front
of those that are read behind them; the greatest nesting counts. -/
lemma answers_collectWhile_append {step : SignatureReader (Option α)}
    {written : α → List UInt8 → Prop} {size : α → ℕ} {as as' : List α} {parts : List (List UInt8)}
    {count : ℕ} (hparts : List.Forall₂ written as parts)
    (hstep : ∀ a ∈ as, ∀ part, written a part →
      step.Answers depth levels Anything (size a) part (some a))
    (hrest : Answers (collectWhile step count) depth levels next n bytes as') :
    Answers (collectWhile step (as.length + count)) depth levels next
      ((as.map size).foldr max n) (parts.flatten ++ bytes) (as ++ as') := by
  induction hparts with
  | nil =>
    rw [List.length_nil, Nat.zero_add]
    exact hrest
  | @cons a part as parts hpart _ ih =>
    rw [List.length_cons, Nat.add_right_comm, collectWhile_succ, List.map_cons, List.foldr_cons,
      List.flatten_cons, List.append_assoc]
    refine answers_bind (hstep a List.mem_cons_self part hpart) ?_
    exact answers_map _ (ih fun a' ha' => hstep a' (List.mem_cons_of_mem a ha'))

/-- Members of a list that are written one behind the other are read one after the other. -/
lemma answers_collectWhile {step : SignatureReader (Option α)} {written : α → List UInt8 → Prop}
    {size : α → ℕ} {as : List α} {parts : List (List UInt8)}
    (hparts : List.Forall₂ written as parts)
    (hstep : ∀ a ∈ as, ∀ part, written a part →
      step.Answers depth levels Anything (size a) part (some a)) :
    Answers (collectWhile step as.length) depth levels next ((as.map size).foldr max 0)
      parts.flatten as := by
  have h : Answers (collectWhile step (as.length + 0)) depth levels next
      ((as.map size).foldr max 0) (parts.flatten ++ []) (as ++ []) :=
    answers_collectWhile_append hparts hstep (answers_pure [])
  rw [List.append_nil, List.append_nil] at h
  exact h

/-- The same for a reader that never ends the list. -/
lemma answers_collect {step : SignatureReader α} {written : α → List UInt8 → Prop}
    {size : α → ℕ} {as : List α} {parts : List (List UInt8)}
    (hparts : List.Forall₂ written as parts)
    (hstep : ∀ a ∈ as, ∀ part, written a part →
      step.Answers depth levels Anything (size a) part a) :
    Answers (collect step as.length) depth levels next ((as.map size).foldr max 0) parts.flatten
      as :=
  answers_collectWhile hparts fun a ha part hpart => answers_map some (hstep a ha part hpart)

/-! ## Parameters and methods -/

section Shapes

variable {type : SignatureReader TypeSig}

/-- The type `t` is read back from the forms `written` behind any modifiers, with such bytes behind
it as `next` allows. These forms start with the byte of the type. -/
structure AnswersWritten (written : TypeSig → List UInt8 → Prop) (type : SignatureReader TypeSig)
    (depth levels : ℕ) (next : List UInt8 → Prop) (t : TypeSig) : Prop where
  exists_cons : ∀ bytes, written t bytes → ∃ content, bytes = t.headCode :: content
  answers : ∀ mods bytes, written t bytes →
    type.Answers depth levels next t.nesting (modifierBytes mods ++ bytes) t

/-- The type `t` is read back from all its written forms, whatever follows. -/
abbrev AnswersBare (type : SignatureReader TypeSig) (depth levels : ℕ) (t : TypeSig) : Prop :=
  AnswersWritten TypeSig.Bare type depth levels Anything t

variable {written : TypeSig → List UInt8 → Prop}

/-- A type is read back, whatever its modifiers. -/
lemma AnswersWritten.answers_modified {t : TypeSig}
    (h : AnswersWritten written type depth levels next t) (hbytes : Modified written t bytes) :
    type.Answers depth levels next t.nesting bytes t := by
  cases hbytes with
  | intro mods hbare => exact h.answers mods _ hbare

/-- A parameter is read back when its type is. Without the mark for a reference, its modifiers and
those of its type are passed over together. -/
lemma answers_param {p : ParamSig} (htype : AnswersWritten written type depth levels next p.type)
    (hclear : p.byRef = false → ¬p.type.IsByRef) (hbytes : ParamShape.Written written p bytes) :
    (param type).Answers depth levels next p.type.nesting bytes p := by
  obtain ⟨byRef, t⟩ := p
  cases hbytes with
  | intro mods hwritten =>
  cases byRef with
  | true =>
    rw [if_pos rfl, List.singleton_append]
    refine answers_modifiers_bind rfl (by decide) ?_
    refine answers_peek_bind rfl ?_
    rw [if_pos rfl]
    refine answers_liftM_bind (Reader.reads_skip_one _) ?_
    exact answers_bind_pure (htype.answers_modified hwritten)
  | false =>
    cases hwritten with
    | intro mods' hbare =>
    obtain ⟨content, rfl⟩ := htype.exists_cons _ hbare
    have hhead : t.headCode ≠ ElementKind.byRef.code := fun h =>
      hclear rfl (TypeSig.isByRef_of_headCode h)
    rw [if_neg Bool.false_ne_true, List.nil_append, ← List.append_assoc, ← modifierBytes_append]
    refine answers_modifiers_bind rfl t.headCode_ne_modifier ?_
    refine answers_peek_bind rfl ?_
    rw [if_neg hhead]
    exact answers_bind_pure (htype.answers [] _ hbare)

/-- The first byte of a parameter is not the mark before further arguments. -/
lemma exists_cons_of_written {p : ParamSig}
    (htype : AnswersWritten written type depth levels next p.type)
    (h : ParamShape.Written written p bytes) :
    ∃ b content, bytes = b :: content ∧ b ≠ sentinel := by
  cases h with
  | intro mods hwritten =>
  cases mods with
  | cons m mods => exact ⟨_, _, rfl, m.mark_ne_sentinel⟩
  | nil =>
  cases p.byRef with
  | true => exact ⟨_, _, rfl, by decide⟩
  | false =>
  cases hwritten with
  | intro mods' hbare =>
  cases mods' with
  | cons m mods' => exact ⟨_, _, rfl, m.mark_ne_sentinel⟩
  | nil =>
  obtain ⟨content, rfl⟩ := htype.exists_cons _ hbare
  exact ⟨_, _, rfl, p.type.headCode_ne_sentinel⟩

/-- A parameter is read back as one more parameter. -/
lemma answers_paramOrEnd {p : ParamSig}
    (htype : AnswersWritten written type depth levels next p.type)
    (hclear : p.byRef = false → ¬p.type.IsByRef) (hbytes : ParamShape.Written written p bytes) :
    (paramOrEnd type).Answers depth levels next p.type.nesting bytes (some p) := by
  obtain ⟨b, content, hcons, hb⟩ := exists_cons_of_written htype hbytes
  refine answers_peek_bind hcons ?_
  rw [if_neg hb]
  exact answers_bind_pure (answers_param htype hclear hbytes)

/-- The number of generic parameters is read back where it is announced, and is zero elsewhere. -/
lemma answers_genericCount_bind {f : ℕ → SignatureReader β} {isGeneric : Bool} {count : ℕ}
    (hcount : count < 2 ^ 29) (hgeneric : isGeneric = false → count = 0)
    (hf : (f count).Answers depth levels next n bytes b) :
    (if isGeneric then ofReader Reader.compressed >>= f else pure 0 >>= f :
      SignatureReader β).Answers depth levels next n (genericBytes isGeneric count ++ bytes) b := by
  cases isGeneric with
  | true => exact answers_liftM_bind (Reader.reads_compressedBytes hcount) hf
  | false =>
    rw [hgeneric rfl] at hf
    exact hf

/-- A method is read back when its parameters are: as many of them as it announces, or those up to
the mark before further arguments. The return value must be content with what follows it. -/
lemma answers_methodOf_of_params {m : MethodSig} {count : ℕ} {head : List UInt8}
    {next' : List UInt8 → Prop} (hgeneric : m.genericCount < 2 ^ 29) (hcount : count < 2 ^ 29)
    (hclear : m.returns.byRef = false → ¬m.returns.type.IsByRef)
    (hreturns : AnswersWritten written type depth levels next' m.returns.type)
    (hhead : MethodShape.Head written count m head)
    (hparams : Answers (collectWhile (paramOrEnd type) count) depth levels next n bytes m.params)
    (hnext : ∀ suffix, next suffix → next' (bytes ++ suffix)) :
    (methodOf type).Answers depth levels next (max m.returns.type.nesting n) (head ++ bytes) m := by
  cases hhead with
  | @intro convention isGeneric _ _ back hconvention hvararg hannounced hback =>
  obtain ⟨hkind, hbit4, hbit5, hbit6⟩ :=
    toNat_conventionByte hconvention isGeneric m.hasThis m.explicitThis
  rw [List.cons_append, List.append_assoc, List.append_assoc]
  refine answers_byte_bind ?_
  simp only [hkind, hbit4, hbit5, hbit6, ← hvararg]
  rw [if_neg (Nat.not_lt.mpr hconvention)]
  refine answers_genericCount_bind hgeneric hannounced ?_
  refine answers_liftM_bind (Reader.reads_compressedBytes hcount) ?_
  refine answers_bind_of_next (answers_param hreturns hclear hback) ?_ hnext
  exact answers_bind_pure (f := fun params => { m with params }) hparams

/-- **A method is read back**, around any reader that reads back the types in it. -/
lemma answers_methodOf {m : MethodSig} (hfits : m.Fits)
    (hreturns : AnswersBare type depth levels m.returns.type)
    (hparams : ∀ p ∈ m.params, AnswersBare type depth levels p.type) (hbytes : m.Written bytes) :
    (methodOf type).Answers depth levels next m.nesting bytes m := by
  cases hbytes with
  | intro hhead hparts =>
    refine answers_methodOf_of_params hfits.genericCount hfits.paramCount hfits.returns hreturns
      hhead ?_ fun _ _ => trivial
    exact answers_collectWhile hparts fun p hp part hpart =>
      answers_paramOrEnd (hparams p hp) (hfits.params p hp) hpart

end Shapes

/-! ## Types -/

section Types

variable {type : SignatureReader TypeSig} {mods : List Modifier}

/-- A built-in type is read back behind its modifiers. -/
lemma answers_typeOf_primitive (p : PrimitiveType) :
    (typeOf type).Answers depth levels next 0 (modifierBytes mods ++ [p.code]) (.primitive p) := by
  refine answers_modifiers_bind rfl (TypeSig.primitive p).headCode_ne_modifier ?_
  refine answers_byte_bind ?_
  rw [PrimitiveType.ofCode?_code]
  exact answers_pure _

/-- Any other type is read back behind its modifiers and the byte that announces its kind, when what
follows that byte is. -/
lemma answers_typeOf_kind {kind : ElementKind} {content : List UInt8} {t : TypeSig}
    (h : (ofKind type kind).Answers depth levels next n content t) :
    (typeOf type).Answers depth levels next n (modifierBytes mods ++ kind.code :: content) t := by
  have hmark : ¬(kind.code = requiredModifier ∨ kind.code = optionalModifier) := by
    cases kind <;> decide
  have hprimitive : PrimitiveType.ofCode? kind.code = none := by
    cases kind <;> rfl
  refine answers_modifiers_bind rfl hmark ?_
  refine answers_byte_bind ?_
  rw [hprimitive, ElementKind.ofCode?_code]
  exact h

/-- An instantiation is read back when the list of its arguments is. -/
lemma answers_ofKind_instantiation {base : TypeSig} {args : List TypeSig} {front : List UInt8}
    (hnamed : base.IsNamed) (hbase : AnswersBare type depth levels base)
    (hcount : args.length < 2 ^ 29) (hfront : base.Bare front)
    (hargs : Answers (collect type args.length) depth levels next n bytes args) :
    (ofKind type .instantiation).Answers depth levels next (max base.nesting n)
      (front ++ (compressedBytes args.length ++ bytes)) (.instantiation base args) := by
  obtain ⟨content, hcons⟩ := hfront.exists_cons
  have hhead : ¬(base.headCode ≠ ElementKind.classType.code ∧
      base.headCode ≠ ElementKind.valueType.code) := by
    obtain ⟨token, rfl | rfl⟩ := hnamed
    · exact fun h => h.1 rfl
    · exact fun h => h.2 rfl
  have hbytes : front ++ (compressedBytes args.length ++ bytes) =
      base.headCode :: (content ++ (compressedBytes args.length ++ bytes)) := by
    rw [hcons, List.cons_append]
  refine answers_peek_bind hbytes ?_
  rw [if_neg hhead]
  refine answers_bind (hbase.answers [] front hfront) ?_
  refine answers_liftM_bind (Reader.reads_compressedBytes hcount) ?_
  exact answers_bind_pure hargs

end Types

/-- A type is read back from the forms `written` at every depth when, one level deeper, its
modifiers and what follows them are. -/
lemma answersWritten_of_typeOf {written : TypeSig → List UInt8 → Prop} {t : TypeSig} {n : ℕ}
    (hcons : ∀ bytes, written t bytes → ∃ content, bytes = t.headCode :: content)
    (hn : t.nesting = n + 1)
    (h : ∀ depth levels mods bytes, written t bytes →
      (typeOf (typeWithin levels)).Answers depth levels next n (modifierBytes mods ++ bytes) t) :
    ∀ depth levels, AnswersWritten written (typeWithin levels) depth levels next t := by
  intro depth levels
  refine ⟨hcons, fun mods bytes hbytes => ?_⟩
  rw [hn]
  cases levels with
  | zero => exact answers_refuse (Nat.succ_pos n)
  | succ levels => exact answers_nested (h (depth + 1) levels mods bytes hbytes)

/-- The same for all written forms of the type, whatever follows. -/
lemma answersBare_of_typeOf {t : TypeSig} {n : ℕ} (hn : t.nesting = n + 1)
    (h : ∀ depth levels mods bytes, t.Bare bytes →
      (typeOf (typeWithin levels)).Answers depth levels Anything n
        (modifierBytes mods ++ bytes) t) :
    ∀ depth levels, AnswersBare (typeWithin levels) depth levels t :=
  answersWritten_of_typeOf (fun _ hbytes => hbytes.exists_cons) hn h

/-- **Types are read back**, at every depth and for every number of levels that are left.

**Proof sketch.** By induction on why the type fits the format. With no level left every type is too
deep. Otherwise the byte at its start selects what is read then, and this answers to what is written
there with one level less: the types in it by the induction hypothesis, numbers and tokens as they
are. -/
lemma answers_typeWithin {t : TypeSig} (h : t.Storable) :
    ∀ depth levels, AnswersBare (typeWithin levels) depth levels t := by
  induction h with
  | primitive p =>
    refine answersBare_of_typeOf rfl fun depth levels mods bytes hbytes => ?_
    cases hbytes
    exact answers_typeOf_primitive p
  | @pointer t _ ih =>
    refine answersBare_of_typeOf rfl fun depth levels mods bytes hbytes => ?_
    cases hbytes with
    | pointer ht => exact answers_typeOf_kind (answers_bind_pure ((ih _ _).answers_modified ht))
  | @byRef t _ ih =>
    refine answersBare_of_typeOf rfl fun depth levels mods bytes hbytes => ?_
    cases hbytes with
    | byRef ht => exact answers_typeOf_kind (answers_bind_pure ((ih _ _).answers_modified ht))
  | valueType htoken =>
    refine answersBare_of_typeOf rfl fun depth levels mods bytes hbytes => ?_
    cases hbytes
    exact answers_typeOf_kind (answers_liftM_bind_pure (Reader.reads_typeBytes htoken))
  | classType htoken =>
    refine answersBare_of_typeOf rfl fun depth levels mods bytes hbytes => ?_
    cases hbytes
    exact answers_typeOf_kind (answers_liftM_bind_pure (Reader.reads_typeBytes htoken))
  | typeParameter hindex =>
    refine answersBare_of_typeOf rfl fun depth levels mods bytes hbytes => ?_
    cases hbytes
    exact answers_typeOf_kind (answers_liftM_bind_pure (Reader.reads_compressedBytes hindex))
  | methodParameter hindex =>
    refine answersBare_of_typeOf rfl fun depth levels mods bytes hbytes => ?_
    cases hbytes
    exact answers_typeOf_kind (answers_liftM_bind_pure (Reader.reads_compressedBytes hindex))
  | @array t rank _ hrank ih =>
    refine answersBare_of_typeOf rfl fun depth levels mods bytes hbytes => ?_
    cases hbytes with
    | array ht rank sizes bounds hsizes hbounds =>
      refine answers_typeOf_kind ?_
      rw [← Nat.max_zero t.nesting]
      exact answers_bind ((ih depth levels).answers_modified ht)
        (answers_liftM_bind_pure (Reader.reads_arrayShape hrank hsizes hbounds))
  | @vector t _ ih =>
    refine answersBare_of_typeOf rfl fun depth levels mods bytes hbytes => ?_
    cases hbytes with
    | vector ht => exact answers_typeOf_kind (answers_bind_pure ((ih _ _).answers_modified ht))
  | @instantiation base args hnamed _ hcount _ ihbase ihargs =>
    refine answersBare_of_typeOf (base.nesting_instantiation args)
      fun depth levels mods bytes hbytes => ?_
    cases hbytes with
    | instantiation hfront hparts =>
      refine answers_typeOf_kind
        (answers_ofKind_instantiation hnamed (ihbase depth levels) hcount hfront ?_)
      exact answers_collect hparts fun arg harg part hpart =>
        (ihargs arg harg depth levels).answers_modified hpart
  | @functionPointer m hfits _ _ ihreturns ihparams =>
    refine answersBare_of_typeOf (TypeSig.nesting_functionPointer m)
      fun depth levels mods bytes hbytes => ?_
    cases hbytes with
    | functionPointer hm =>
      exact answers_typeOf_kind (answers_bind_pure (answers_methodOf hfits (ihreturns depth levels)
        (fun p hp => ihparams p hp depth levels) hm))
  | @pinned t _ ih =>
    refine answersBare_of_typeOf rfl fun depth levels mods bytes hbytes => ?_
    cases hbytes with
    | pinned ht => exact answers_typeOf_kind (answers_bind_pure ((ih _ _).answers_modified ht))

/-- A type is read with as many levels as are left at its depth. -/
lemma AnswersWritten.answersWritten_type {written : TypeSig → List UInt8 → Prop}
    {next : List UInt8 → Prop} {depth : ℕ} {t : TypeSig}
    (h : AnswersWritten written (typeWithin (levelsAt depth)) depth (levelsAt depth) next t) :
    AnswersWritten written type depth (levelsAt depth) next t := by
  refine ⟨h.exists_cons, fun mods bytes hbytes => ?_⟩
  have hwithin := h.answers mods bytes hbytes
  constructor
  · intro hle s suffix hdepth hnext hrest
    rw [← hwithin.reads hle s suffix hdepth hnext hrest, ← hdepth]
    rfl
  · intro hlt s suffix hdepth hnext hrest
    obtain ⟨s', hs'⟩ := hwithin.refuses hlt s suffix hdepth hnext hrest
    refine ⟨s', ?_⟩
    rw [← hs', ← hdepth]
    rfl

/-- The signature of a type is read back, with as many levels as are left at its depth. -/
lemma answersBare_type {depth : ℕ} {t : TypeSig} (h : t.Storable) :
    AnswersBare type depth (levelsAt depth) t :=
  (answers_typeWithin h depth (levelsAt depth)).answersWritten_type

/-- The signature of a field is read back behind its mark. -/
lemma answers_field {depth : ℕ} {t : TypeSig} {bytes : List UInt8} (h : t.Storable)
    (hbytes : t.Written bytes) :
    field.Answers depth (levelsAt depth) Anything t.nesting (fieldMark :: bytes) t := by
  refine answers_byte_bind ?_
  simp only [ne_eq, not_true_eq_false, if_false]
  exact (answersBare_type h).answers_modified hbytes

/-- The signature of a method is read back. -/
lemma answers_method {depth : ℕ} {m : MethodSig} {bytes : List UInt8} (h : m.Storable)
    (hbytes : m.Written bytes) :
    method.Answers depth (levelsAt depth) Anything m.nesting bytes m :=
  answers_methodOf h.fits (answersBare_type h.returns) (fun p hp => answersBare_type (h.params p hp))
    hbytes

/-- How a reader of signatures answers to a blob that starts with bytes in which `a` was written and
is nested `nesting` levels deep: below the limit it gives `a` and ends right behind these bytes and
outside of all types; from the limit on it fails for that reason. What follows in the blob does not
matter. -/
def Decodes {α : Type} (r : SignatureReader α) (nesting : ℕ) (bytes : List UInt8) (a : α) : Prop :=
  ∀ suffix : List UInt8,
    (nesting < nestingLimit →
      r.run (.ofBlob ⟨(bytes ++ suffix).toArray⟩) =
        .ok a ⟨⟨⟨(bytes ++ suffix).toArray⟩, bytes.length⟩, 0⟩) ∧
    (nestingLimit ≤ nesting → r.runOn ⟨(bytes ++ suffix).toArray⟩ = .error .nesting)

/-- What a reader answers at the outermost level, as a statement about blobs. -/
lemma Answers.decodes {α : Type} {r : SignatureReader α} {nesting : ℕ} {bytes : List UInt8} {a : α}
    (h : r.Answers 0 (levelsAt 0) Anything nesting bytes a) : r.Decodes nesting bytes a := by
  have hlevels : levelsAt 0 + 1 = nestingLimit := by decide
  intro suffix
  have hrest : (SignatureCursor.ofBlob ⟨(bytes ++ suffix).toArray⟩).cursor.rest =
      bytes ++ suffix := rfl
  constructor
  · intro hlt
    rw [h.reads (by omega) _ suffix rfl trivial hrest, SignatureCursor.advance, Cursor.advance,
      SignatureCursor.ofBlob, Cursor.ofBytes]
    simp only [Nat.zero_add]
  · intro hle
    obtain ⟨s', hs'⟩ := h.refuses (by omega) _ suffix rfl trivial hrest
    rw [runOn, hs']

/-- **Reading signatures undoes writing them.** Every signature that fits the format has a written
form, and from each of its written forms — any modifiers, sizes and lower bounds, any calling
convention, with any bytes behind it — the reader gives that signature and stops right behind it,
as long as its types are nested less deep than the limit; otherwise it fails for that reason. This
holds of the signatures of types, of fields and of methods.

**Proof sketch.** `answers_typeWithin` is the induction over types. Fields and methods are read
around them, at depth zero, where one level less than the limit is left. -/
theorem decoding_undoes_encoding :
    (∀ t : TypeSig, t.Storable →
      (∃ bytes, t.Written bytes) ∧
      ∀ bytes, t.Written bytes →
        type.Decodes t.nesting bytes t ∧ field.Decodes t.nesting (fieldMark :: bytes) t) ∧
    ∀ m : MethodSig, m.Storable →
      (∃ bytes, m.Written bytes) ∧ ∀ bytes, m.Written bytes → method.Decodes m.nesting bytes m := by
  constructor
  · intro t ht
    refine ⟨ht.exists_written, fun bytes hbytes => ⟨?_, ?_⟩⟩
    · exact ((answersBare_type ht).answers_modified hbytes).decodes
    · exact (answers_field ht hbytes).decodes
  · intro m hm
    refine ⟨hm.exists_written, fun bytes hbytes => ?_⟩
    exact (answers_methodOf hm.fits (answersBare_type hm.returns)
      (fun p hp => answersBare_type (hm.params p hp)) hbytes).decodes

/-- A method without parameters that returns nothing. -/
def voidAction : MethodSig :=
  ⟨false, false, false, 0, ⟨false, .primitive .void⟩, []⟩

/-- A generic method with a function pointer among its parameters, which returns an
instantiation. -/
def arrayFactory : MethodSig where
  hasThis := true
  explicitThis := false
  vararg := true
  genericCount := 1
  returns := ⟨false, .instantiation (.classType (.ofParts 1 1))
    [.methodParameter 0, .array (.primitive .i4) 2]⟩
  params := [⟨true, .vector (.primitive .string)⟩,
    ⟨false, .functionPointer voidAction⟩]

/-- A written form of `arrayFactory`: its return value and the array in it are modified, and the
array has a size of 200 and a lower bound of -1. -/
def arrayFactoryBytes : List UInt8 :=
  [0x35, 0x01, 0x02, 0x1F, 0x09, 0x15, 0x12, 0x05, 0x02, 0x1E, 0x00, 0x20, 0x0C, 0x14, 0x08, 0x02,
    0x01, 0x80, 0xC8, 0x01, 0x7F, 0x10, 0x1D, 0x0E, 0x1B, 0x00, 0x00, 0x01]

lemma storable_arrayFactory : arrayFactory.Storable := by
  have hpointer : TypeSig.Storable (.functionPointer voidAction) := by
    refine .functionPointer ⟨by decide, by decide, ?_, ?_⟩ (.primitive .void) ?_
    · rintro - ⟨target, h⟩
      cases h
    · intro p hp
      cases hp
    · intro p hp
      cases hp
  refine ⟨⟨by decide, by decide, ?_, ?_⟩, ?_, ?_⟩
  · rintro - ⟨target, h⟩
    cases h
  · rintro p hp - ⟨target, h⟩
    simp only [arrayFactory, List.mem_cons, List.not_mem_nil, or_false] at hp
    rcases hp with rfl | rfl <;> cases h
  · refine .instantiation ⟨_, .inl rfl⟩ (.classType (by decide)) (by decide) ?_
    intro t ht
    simp only [List.mem_cons, List.not_mem_nil, or_false] at ht
    rcases ht with rfl | rfl
    · exact .methodParameter (by decide)
    · exact .array (.primitive .i4) (by decide)
  · intro p hp
    simp only [arrayFactory, List.mem_cons, List.not_mem_nil, or_false] at hp
    rcases hp with rfl | rfl
    · exact .vector (.primitive .string)
    · exact hpointer

lemma written_arrayFactoryBytes : arrayFactory.Written arrayFactoryBytes := by
  have hshape : arrayShapeBytes 2 [200] [-1] = [0x02, 0x01, 0x80, 0xC8, 0x01, 0x7F] := by decide
  have hoptional : modifierBytes [⟨false, .ofParts 2 3, by decide⟩] = [0x20, 0x0C] := by decide
  have hrequired : modifierBytes [⟨true, .ofParts 1 2, by decide⟩] = [0x1F, 0x09] := by decide
  have harray : TypeSig.Bare (.array (.primitive .i4) 2)
      [0x14, 0x08, 0x02, 0x01, 0x80, 0xC8, 0x01, 0x7F] :=
    hshape ▸ .array (.of_bare (.primitive .i4)) 2 [200] [-1] (by decide) (by decide)
  have hmodified : TypeSig.Written (.array (.primitive .i4) 2)
      [0x20, 0x0C, 0x14, 0x08, 0x02, 0x01, 0x80, 0xC8, 0x01, 0x7F] := by
    have h := Modified.intro [⟨false, .ofParts 2 3, by decide⟩] harray
    rw [hoptional] at h
    exact h
  have hinstantiation : TypeSig.Bare arrayFactory.returns.type
      [0x15, 0x12, 0x05, 0x02, 0x1E, 0x00, 0x20, 0x0C, 0x14, 0x08, 0x02, 0x01, 0x80, 0xC8, 0x01,
        0x7F] :=
    .instantiation (.classType (.ofParts 1 1))
      (.cons (.of_bare (.methodParameter 0)) (.cons hmodified .nil))
  have hreturns : ParamShape.Written TypeSig.Bare arrayFactory.returns
      [0x1F, 0x09, 0x15, 0x12, 0x05, 0x02, 0x1E, 0x00, 0x20, 0x0C, 0x14, 0x08, 0x02, 0x01, 0x80,
        0xC8, 0x01, 0x7F] := by
    have h : ParamShape.Written TypeSig.Bare arrayFactory.returns _ :=
      .intro [⟨true, .ofParts 1 2, by decide⟩] (.of_bare hinstantiation)
    rw [hrequired] at h
    exact h
  have hhead : MethodShape.Head TypeSig.Bare 0 voidAction [0x00, 0x00, 0x01] :=
    @MethodShape.Head.intro TypeSig TypeSig.Bare 0 false 0 voidAction [0x01] (by decide) rfl
      (fun _ => rfl) (.intro [] (.of_bare (.primitive .void)))
  have haction : voidAction.Written ([0x00, 0x00, 0x01] ++ [].flatten) := .intro hhead .nil
  have hvector : ParamShape.Written TypeSig.Bare ⟨true, .vector (.primitive .string)⟩
      [0x10, 0x1D, 0x0E] :=
    .intro [] (.of_bare (.vector (.of_bare (.primitive .string))))
  have hpointer : ParamShape.Written TypeSig.Bare ⟨false, .functionPointer voidAction⟩
      [0x1B, 0x00, 0x00, 0x01] :=
    .intro [] (.of_bare (.functionPointer haction))
  have hparams : List.Forall₂ (ParamShape.Written TypeSig.Bare) arrayFactory.params
      [[0x10, 0x1D, 0x0E], [0x1B, 0x00, 0x00, 0x01]] :=
    .cons hvector (.cons hpointer .nil)
  exact .intro (@MethodShape.Head.intro TypeSig TypeSig.Bare 5 true 2 arrayFactory _ (by decide) rfl
    (fun h => nomatch h) hreturns) hparams

/-- A method by the general law, in front of two bytes that do not belong to it. -/
theorem decoding_undoes_encoding_arrayFactory :
    arrayFactory.Storable ∧ arrayFactory.Written arrayFactoryBytes ∧ arrayFactory.nesting = 3 ∧
      method.runOn ⟨(arrayFactoryBytes ++ [0x41, 0x08]).toArray⟩ = .ok arrayFactory := by
  have hnesting : arrayFactory.nesting = 3 := by decide
  have hdecodes : method.Decodes arrayFactory.nesting arrayFactoryBytes arrayFactory :=
    (decoding_undoes_encoding.2 arrayFactory storable_arrayFactory).2 arrayFactoryBytes
      written_arrayFactoryBytes
  refine ⟨storable_arrayFactory, written_arrayFactoryBytes, hnesting, ?_⟩
  rw [runOn, (hdecodes [0x41, 0x08]).1 (by rw [hnesting]; decide)]

end SignatureReader

end TypeInventory
