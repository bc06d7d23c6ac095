import TypeInventory.Proofs.Bytes.Written

set_option relaxedAutoImplicit false
set_option autoImplicit false

/-!
# Compressed integers, byte by byte

The high bits of the first byte of a compressed integer announce how many bytes it has. This module
says what that means without the reader: the announced bytes are the number with the mark of their
width added to it, most significant byte first. The reader takes exactly these bytes, gives exactly
this number, and fails exactly where no width is announced or announced bytes are missing.

## Main definitions

* `announcedWidth?` — how many bytes a first byte announces.
* `bigEndianBytes`, `markedBytes` — a number most significant byte first, and the same with the mark
  of the width.
* `leastWidth` — the least width that holds a number.

## Main results

* `compressedBytes_eq_markedBytes` — the shortest form of a number, by its width.
* `Reader.CompressedForm.eq_markedBytes` — every form of a number, by the width that it announces.
* `Reader.exists_run_compressed_iff` — a number is read when the announced bytes are there.
* `Reader.typeBytes_token`, `Reader.run_compressedToken_of_tag_three` — the numbers that stand for
  tokens, and those that do not.
* `Reader.compressed_exact` — numbers and tokens in front of any bytes.
-/

namespace TypeInventory

/-! ## Widths -/

/-- How many bytes the first byte of a compressed integer announces, by its high bits: `0` is one
byte, `10` is two and `110` is four. Bytes from `0xE0` on announce nothing. -/
def announcedWidth? (lead : UInt8) : Option ℕ :=
  if lead.toNat < 0x80 then some 1
  else if lead.toNat < 0xC0 then some 2
  else if lead.toNat < 0xE0 then some 4
  else none

/-- What the high bits that announce a width add to a number of this width. -/
def widthMark : ℕ → ℕ
  | 2 => 0x8000
  | 4 => 0xC0000000
  | _ => 0

/-- The first `width` base-256 digits of `n`, most significant first. -/
def bigEndianBytes (width n : ℕ) : List UInt8 :=
  (littleEndianBytes width n).reverse

/-- A number with the mark of a width, in this width and most significant byte first. -/
def markedBytes (width n : ℕ) : List UInt8 :=
  bigEndianBytes width (widthMark width + n)

/-- The least width in which a number below `2 ^ 29` can be written. -/
def leastWidth (n : ℕ) : ℕ :=
  if n < 0x80 then 1 else if n < 0x4000 then 2 else 4

/-- The widths are one, two and four bytes. -/
lemma leastWidth_mem (n : ℕ) : leastWidth n ∈ [1, 2, 4] := by
  unfold leastWidth
  split_ifs <;> decide

/-- A first byte announces nothing exactly when it is `0xE0` or more. -/
lemma announcedWidth?_eq_none_iff {lead : UInt8} :
    announcedWidth? lead = none ↔ 0xE0 ≤ lead.toNat := by
  unfold announcedWidth?
  split_ifs <;> simp <;> omega

lemma length_markedBytes (width n : ℕ) : (markedBytes width n).length = width := by
  rw [markedBytes, bigEndianBytes, List.length_reverse, length_littleEndianBytes]

/-- Numbers that differ by a multiple of 256 have the same lowest byte. -/
lemma ofNat_eq_ofNat {m n : ℕ} (h : m % 0x100 = n % 0x100) : UInt8.ofNat m = UInt8.ofNat n :=
  UInt8.toNat_inj.mp (by rw [UInt8.toNat_ofNat', UInt8.toNat_ofNat', h])

lemma markedBytes_one (n : ℕ) : markedBytes 1 n = [UInt8.ofNat n] := by
  simp [markedBytes, bigEndianBytes, littleEndianBytes, widthMark]

lemma markedBytes_two (n : ℕ) : markedBytes 2 n = twoByteForm n := by
  simp only [markedBytes, bigEndianBytes, littleEndianBytes, widthMark, twoByteForm,
    List.reverse_cons, List.reverse_nil, List.nil_append, List.singleton_append]
  rw [ofNat_eq_ofNat (show (0x8000 + n) / 256 % 0x100 = (0x80 + n / 0x100) % 0x100 by omega),
    ofNat_eq_ofNat (show (0x8000 + n) % 0x100 = n % 0x100 by omega)]

lemma markedBytes_four (n : ℕ) : markedBytes 4 n = fourByteForm n := by
  simp only [markedBytes, bigEndianBytes, littleEndianBytes, widthMark, fourByteForm,
    List.reverse_cons, List.reverse_nil, List.nil_append, List.cons_append]
  rw [ofNat_eq_ofNat (show (0xC0000000 + n) / 256 / 256 / 256 % 0x100 =
      (0xC0 + n / 0x1000000) % 0x100 by omega),
    ofNat_eq_ofNat (show (0xC0000000 + n) / 256 / 256 % 0x100 = n / 0x10000 % 0x100 by omega),
    ofNat_eq_ofNat (show (0xC0000000 + n) / 256 % 0x100 = n / 0x100 % 0x100 by omega),
    ofNat_eq_ofNat (show (0xC0000000 + n) % 0x100 = n % 0x100 by omega)]

/-- **The shortest form of a number** is that of the least width. -/
lemma compressedBytes_eq_markedBytes (n : ℕ) :
    compressedBytes n = markedBytes (leastWidth n) n := by
  unfold compressedBytes leastWidth
  split_ifs
  · exact (markedBytes_one n).symm
  · exact (markedBytes_two n).symm
  · exact (markedBytes_four n).symm

namespace Reader

/-! ## Forms by their widths -/

/-- **Every form of a number** has the width that its first byte announces, and consists of the
number with the mark of this width. -/
lemma CompressedForm.eq_markedBytes {form : List UInt8} {n : ℕ} (h : CompressedForm form n) :
    n < 2 ^ 29 ∧ ∃ width, form.head?.bind announcedWidth? = some width ∧
      form = markedBytes width n := by
  have hlead : ∀ lead : ℕ, lead < 0x100 → (UInt8.ofNat lead).toNat = lead := fun lead hlt =>
    toNat_ofNat_of_lt hlt
  cases h with
  | oneByte h =>
    refine ⟨by omega, 1, ?_, (markedBytes_one n).symm⟩
    simp only [List.head?_cons, Option.bind_some, announcedWidth?, hlead n (by omega)]
    exact if_pos h
  | twoBytes h =>
    refine ⟨by omega, 2, ?_, (markedBytes_two n).symm⟩
    simp only [twoByteForm, List.head?_cons, Option.bind_some, announcedWidth?,
      hlead (0x80 + n / 0x100) (by omega)]
    rw [if_neg (by omega), if_pos (by omega)]
  | fourBytes h =>
    refine ⟨h, 4, ?_, (markedBytes_four n).symm⟩
    simp only [fourByteForm, List.head?_cons, Option.bind_some, announcedWidth?,
      hlead (0xC0 + n / 0x1000000) (by omega)]
    rw [if_neg (by omega), if_neg (by omega), if_pos (by omega)]

/-- No form of a number is shorter than the shortest one. -/
lemma CompressedForm.leastWidth_le {form : List UInt8} {n : ℕ} (h : CompressedForm form n) :
    leastWidth n ≤ form.length := by
  cases h with
  | oneByte h => exact (if_pos h).le
  | twoBytes h =>
    unfold leastWidth
    split_ifs <;> simp [twoByteForm]
  | fourBytes h =>
    unfold leastWidth
    split_ifs <;> simp [fourByteForm]

/-- As many bytes as the first one announces are a form of some number. -/
lemma exists_compressedForm_take {bytes : List UInt8} {width : ℕ}
    (hwidth : bytes.head?.bind announcedWidth? = some width) (hroom : width ≤ bytes.length) :
    ∃ n, CompressedForm (bytes.take width) n := by
  obtain ⟨lead, hhead, hlead⟩ := Option.bind_eq_some_iff.mp hwidth
  obtain ⟨suffix, rfl⟩ := List.head?_eq_some_iff.mp hhead
  unfold announcedWidth? at hlead
  split_ifs at hlead with hone htwo hfour
  · cases hlead
    exact ⟨_, compressedForm_single hone⟩
  · cases hlead
    obtain ⟨second, suffix, rfl⟩ := List.exists_cons_of_length_pos
      (show 0 < suffix.length by rw [List.length_cons] at hroom; omega)
    exact ⟨_, compressedForm_pair (by omega) htwo⟩
  · cases hlead
    match suffix, hroom with
    | second :: third :: fourth :: suffix, _ =>
      exact ⟨_, compressedForm_quadruple (by omega) hfour⟩

/-! ## Where a number is read -/

/-- What is read is the number in as many bytes as the first one announces. -/
lemma eq_markedBytes_of_run {c c' : Cursor} {n : ℕ} (h : compressed.run c = .ok n c') :
    n < 2 ^ 29 ∧ ∃ width, c.rest.head?.bind announcedWidth? = some width ∧
      c.rest.take width = markedBytes width n ∧ c' = c.advance width := by
  obtain ⟨form, hform, hrest, hc'⟩ := exists_compressedForm_of_run h
  obtain ⟨hn, width, hwidth, hbytes⟩ := hform.eq_markedBytes
  have hlength : form.length = width := by rw [hbytes, length_markedBytes]
  refine ⟨hn, width, ?_, ?_, hlength ▸ hc'⟩
  · rw [hrest, List.head?_append_of_ne_nil _ hform.ne_nil]
    exact hwidth
  · rw [hrest, ← hlength, List.take_left, hlength]
    exact hbytes

/-- **A number is read** exactly when a width is announced and that many bytes are there. -/
lemma exists_run_compressed_iff {c : Cursor} :
    (∃ n c', compressed.run c = .ok n c') ↔
      ∃ width, c.rest.head?.bind announcedWidth? = some width ∧ width ≤ c.rest.length := by
  constructor
  · rintro ⟨n, c', h⟩
    obtain ⟨-, width, hwidth, hbytes, -⟩ := eq_markedBytes_of_run h
    have hlength := congrArg List.length hbytes
    rw [length_markedBytes, List.length_take] at hlength
    exact ⟨width, hwidth, by omega⟩
  · rintro ⟨width, hwidth, hroom⟩
    obtain ⟨n, hform⟩ := exists_compressedForm_take hwidth hroom
    exact ⟨n, _, hform.reads c (c.rest.drop width) (List.take_append_drop width c.rest).symm⟩

/-- Where no number is read, the first byte tells why, and nothing else can be wrong. -/
lemma run_compressed_eq_error_iff {c : Cursor} {e : Fault} :
    (∃ c', compressed.run c = .error e c') ↔
      (¬∃ n c', compressed.run c = .ok n c') ∧ e = compressedFault c.rest := by
  constructor
  · rintro ⟨c', h⟩
    refine ⟨?_, run_compressed_eq_error h⟩
    rintro ⟨n, c'', hok⟩
    rw [h] at hok
    cases hok
  · rintro ⟨hnone, rfl⟩
    cases hrun : compressed.run c with
    | ok n c' => exact absurd ⟨n, c', hrun⟩ hnone
    | error e c' => exact ⟨c', congrArg (EStateM.Result.error · c') (run_compressed_eq_error hrun)⟩

/-- A number is not read because the format is broken or because bytes are missing. -/
lemma compressedFault_cases (bytes : List UInt8) :
    compressedFault bytes = .outOfBounds ∨ ∃ cause, compressedFault bytes = .malformed cause := by
  cases bytes with
  | nil => exact .inl rfl
  | cons lead suffix =>
    rw [compressedFault]
    split_ifs
    · exact .inl rfl
    · exact .inr ⟨_, rfl⟩

/-- **The format is broken** exactly when the first byte announces nothing. -/
lemma run_compressed_malformed_iff {c : Cursor} :
    (∃ cause c', compressed.run c = .error (.malformed cause) c') ↔
      ∃ lead ∈ c.rest.head?, 0xE0 ≤ lead.toNat := by
  simp only [run_compressed_eq_error_iff, exists_run_compressed_iff]
  cases hrest : c.rest with
  | nil => simp [compressedFault]
  | cons lead suffix =>
    simp only [compressedFault, List.head?_cons, Option.bind_some, Option.mem_some_iff,
      exists_eq_left']
    constructor
    · rintro ⟨cause, -, hcause⟩
      by_contra hlt
      rw [if_pos (by omega)] at hcause
      cases hcause
    · intro hlead
      rw [announcedWidth?_eq_none_iff.mpr hlead, if_neg (by omega)]
      exact ⟨_, by simp, rfl⟩

/-- **Bytes are missing** exactly when there is no first byte, or fewer bytes than it announces. -/
lemma run_compressed_outOfBounds_iff {c : Cursor} :
    (∃ c', compressed.run c = .error .outOfBounds c') ↔
      c.rest = [] ∨
      ∃ width, c.rest.head?.bind announcedWidth? = some width ∧ c.rest.length < width := by
  rw [run_compressed_eq_error_iff, exists_run_compressed_iff]
  cases hrest : c.rest with
  | nil => simp [compressedFault]
  | cons lead suffix =>
    simp only [compressedFault, List.head?_cons, Option.bind_some, reduceCtorEq, false_or]
    cases hlead : announcedWidth? lead with
    | none =>
      have hlow := announcedWidth?_eq_none_iff.mp hlead
      rw [if_neg (by omega)]
      simp
    | some width =>
      have hlow : ¬0xE0 ≤ lead.toNat := by
        rw [← announcedWidth?_eq_none_iff, hlead]
        exact Option.some_ne_none width
      rw [if_pos (by omega)]
      simp

/-! ## Tokens -/

/-- The token of a row in one of the tables of types is written as the row, with the tag of the
table in the two lowest bits. -/
lemma typeBytes_token {tag : ℕ} {t : TableId}
    (h : (tag, t) ∈ [(0, TableId.typeDef), (1, .typeRef), (2, .typeSpec)]) {row : ℕ}
    (hrow : row < 2 ^ 24) :
    (t.token row).NamesType ∧ (t.token row).typeBytes = compressedBytes (row <<< 2 ||| tag) := by
  have htag : tag < 4 ∧ (t.token row).NamesType ∧ (t.token row).typeTag = tag := by
    unfold Token.NamesType Token.typeTag
    rw [t.table_token]
    simp only [List.mem_cons, Prod.mk.injEq, List.not_mem_nil, or_false] at h
    rcases h with ⟨rfl, rfl⟩ | ⟨rfl, rfl⟩ | ⟨rfl, rfl⟩ <;> decide
  obtain ⟨hlt, hnames, htag⟩ := htag
  refine ⟨hnames, ?_⟩
  rw [Token.typeBytes, htag, t.row_token, Nat.mod_eq_of_lt hrow, Nat.shiftLeft_add_eq_or_of_lt hlt]

/-- **A number with the tag three** selects no table and is rejected. -/
lemma run_compressedToken_of_tag_three {c c' : Cursor} {n : ℕ} (h : compressed.run c = .ok n c')
    (hthree : n % 4 = 3) :
    compressedToken.run c = .error (.malformed (.compressedToken n)) c' := by
  have htag : n % 1 <<< CodedKind.typeDefOrRef.tagBits = 3 := hthree
  have hdecode : CodedIndex.decode? .typeDefOrRef n = none := by
    rw [CodedIndex.decode?, htag]
    rfl
  rw [compressedToken, EStateM.run_bind, h]
  simp only [hdecode]
  rfl

/-! ## Numbers and tokens -/

/-- **Compressed integers and tokens are decoded exactly**, in front of any bytes.

* A number below `2 ^ 29` in its shortest form, whatever follows, is read as it is, and the cursor
  moves behind its one, two or four bytes.
* A number that is read is below `2 ^ 29`; the bytes that were taken are as many as the first one
  announces, and they are the number with the mark of this width, most significant byte first.
* Reading fails for the format exactly when the first byte is `0xE0` or more, for the bounds exactly
  when there is no first byte or fewer bytes than it announces, and for no other reason.
* The form of `row <<< 2 ||| tag` is read as the token of the row in the table of the tag; a number
  with the tag three is rejected.

**Proof sketch.** What is read stands there in one of three forms (`exists_compressedForm_of_run`),
each of which is the number with the mark of the width that it announces; as many bytes as the first
one announces always are such a form. So a number is read exactly when the announced bytes are there
(`exists_run_compressed_iff`), and where none is read the first byte tells why. -/
theorem compressed_exact (c : Cursor) :
    (∀ n suffix, n < 2 ^ 29 → c.rest = markedBytes (leastWidth n) n ++ suffix →
      compressed.run c = .ok n (c.advance (leastWidth n)) ∧ leastWidth n ∈ [1, 2, 4] ∧
      ∀ form, CompressedForm form n → leastWidth n ≤ form.length) ∧
    (∀ n c', compressed.run c = .ok n c' →
      n < 2 ^ 29 ∧ ∃ width, c.rest.head?.bind announcedWidth? = some width ∧
        c.rest.take width = markedBytes width n ∧ c' = c.advance width) ∧
    ((∃ cause c', compressed.run c = .error (.malformed cause) c') ↔
      ∃ lead ∈ c.rest.head?, 0xE0 ≤ lead.toNat) ∧
    ((∃ c', compressed.run c = .error .outOfBounds c') ↔
      c.rest = [] ∨
      ∃ width, c.rest.head?.bind announcedWidth? = some width ∧ c.rest.length < width) ∧
    (∀ e c', compressed.run c = .error e c' → e = .outOfBounds ∨ ∃ cause, e = .malformed cause) ∧
    (∀ tag t, (tag, t) ∈ [(0, TableId.typeDef), (1, .typeRef), (2, .typeSpec)] →
      ∀ row suffix, row < 2 ^ 24 → c.rest = compressedBytes (row <<< 2 ||| tag) ++ suffix →
      compressedToken.run c =
        .ok (t.token row) (c.advance (compressedBytes (row <<< 2 ||| tag)).length) ∧
      (t.token row).table = t.number ∧ (t.token row).row = row) ∧
    ∀ n c', compressed.run c = .ok n c' → n % 4 = 3 →
      compressedToken.run c = .error (.malformed (.compressedToken n)) c' := by
  refine ⟨?_, fun n c' => eq_markedBytes_of_run, run_compressed_malformed_iff,
    run_compressed_outOfBounds_iff, ?_, ?_, fun n c' => run_compressedToken_of_tag_three⟩
  · intro n suffix hn hrest
    have hread := reads_compressedBytes hn c suffix
    rw [compressedBytes_eq_markedBytes, length_markedBytes] at hread
    exact ⟨hread hrest, leastWidth_mem n, fun form hform => hform.leastWidth_le⟩
  · intro e c' h
    rw [run_compressed_eq_error h]
    exact compressedFault_cases c.rest
  · intro tag t hmem row suffix hrow hrest
    obtain ⟨hnames, hbytes⟩ := typeBytes_token hmem hrow
    rw [← hbytes] at hrest ⊢
    refine ⟨reads_typeBytes hnames c suffix hrest, t.table_token row, ?_⟩
    rw [t.row_token, Nat.mod_eq_of_lt hrow]

/-- Two bytes in the middle of a blob, read as the number `0x3FFD` and as row `0xFFF` of the
references. -/
theorem compressed_exact_typeRefRow :
    compressed.run ⟨⟨#[0x00, 0xBF, 0xFD, 0x07]⟩, 1⟩ =
      .ok 0x3FFD (Cursor.advance ⟨⟨#[0x00, 0xBF, 0xFD, 0x07]⟩, 1⟩ 2) ∧
    compressedToken.run ⟨⟨#[0x00, 0xBF, 0xFD, 0x07]⟩, 1⟩ =
      .ok (TableId.typeRef.token 0xFFF) (Cursor.advance ⟨⟨#[0x00, 0xBF, 0xFD, 0x07]⟩, 1⟩ 2) := by
  obtain ⟨hnumber, -, -, -, -, htoken, -⟩ :=
    compressed_exact ⟨⟨#[0x00, 0xBF, 0xFD, 0x07]⟩, 1⟩
  exact ⟨(hnumber 0x3FFD [0x07] (by decide) (by decide)).1,
    (htoken 1 .typeRef (by decide) 0xFFF [0x07] (by decide) (by decide)).1⟩

end Reader

end TypeInventory
