import Mathlib.Data.Nat.ModEq
import TypeInventory.Proofs.Module.GenericParameters
import TypeInventory.Proofs.Module.Marks
import TypeInventory.Proofs.Signature.Accepted

set_option relaxedAutoImplicit false
set_option autoImplicit false

/-!
# References to rows and their tokens

Coded indices and compressed tokens refer to rows by numbers that may have more bits than the rows
of tokens have. Marks and generic parameters are gathered by tokens, so that rows whose numbers
agree in 24 bits share what is gathered. This module tells what a token keeps of a reference, and
what follows for marks and generic parameters.

## Main results

* `CodedIndex.token_eq_token_iff` — which references share a token.
* `Reader.run_coded_eq_ok`, `Reader.run_compressedToken_eq_ok` — what is read, and its token.
* `OpenModule.isGenerated_token_iff` — which attributes mark a row.
* `OpenModule.parametersOf_eq` — which generic parameters are those of a row.
* `OpenModule.references_by_token` — all of this for any references, attributes and parameters.
* `CodedIndex.rows_share_token` — two different rows that have the same token.
-/

namespace TypeInventory

/-! ## Tokens -/

namespace TableId

lemma number_inj {s t : TableId} : s.number = t.number ↔ s = t := by
  constructor
  · intro h
    have hs := all_getElem?_number s
    rw [h, all_getElem?_number t] at hs
    exact (Option.some.inj hs).symm
  · rintro rfl
    rfl

/-- Rows share a token if they are in the same table and their numbers agree in 24 bits. -/
lemma token_eq_token_iff {s t : TableId} {i j : ℕ} :
    s.token i = t.token j ↔ s = t ∧ i ≡ j [MOD 2 ^ 24] := by
  constructor
  · intro h
    have htable := congrArg Token.table h
    have hrow := congrArg Token.row h
    rw [table_token, table_token, number_inj] at htable
    rw [row_token, row_token] at hrow
    exact ⟨htable, hrow⟩
  · rintro ⟨rfl, hrow⟩
    rw [token, token, Token.ofParts, Token.ofParts, show i % 0x1000000 = j % 0x1000000 from hrow]

end TableId

/-- **References share a token** exactly if they are to the same table and the numbers of their rows
agree in 24 bits. -/
lemma CodedIndex.token_eq_token_iff {i j : CodedIndex} :
    i.token = j.token ↔ i.table = j.table ∧ i.row ≡ j.row [MOD 2 ^ 24] :=
  TableId.token_eq_token_iff

/-- A number is kept by 24 bits exactly if it has no more. -/
lemma mod_two_pow_eq_self_iff {row : ℕ} : row % 2 ^ 24 = row ↔ row < 2 ^ 24 := by
  omega

/-! ## What is read -/

namespace Reader

/-- A coded index is read from a number, by its tag. -/
lemma run_coded_eq_ok {layout : Layout} {kind : CodedKind} {c c' : Cursor} {i : CodedIndex}
    (h : (coded layout kind).run c = .ok i c') :
    ∃ value, (word (layout.codedWidth kind)).run c = .ok value c' ∧
      kind.tables[value % 2 ^ kind.tagBits]? = some i.table ∧ i.row = value >>> kind.tagBits := by
  obtain ⟨value, c₁, hvalue, hdecode⟩ := run_bind_eq_ok_iff.mp h
  cases hi : CodedIndex.decode? kind value with
  | none =>
    rw [hi] at hdecode
    cases hdecode
  | some i' =>
    rw [hi] at hdecode
    cases hdecode
    obtain ⟨table, htable, rfl⟩ := Option.map_eq_some_iff.mp hi
    rw [Nat.one_shiftLeft] at htable
    exact ⟨value, hvalue, htable, rfl⟩

/-- A compressed token is that of the reference that a compressed integer stands for. -/
lemma run_compressedToken_eq_ok {c c' : Cursor} {token : Token}
    (h : compressedToken.run c = .ok token c') :
    ∃ value i, compressed.run c = .ok value c' ∧
      CodedKind.typeDefOrRef.tables[value % 4]? = some (CodedIndex.table i) ∧
      i.row = value >>> 2 ∧ token = i.token := by
  obtain ⟨value, c₁, hvalue, hdecode⟩ := run_bind_eq_ok_iff.mp h
  have hbits : CodedKind.typeDefOrRef.tagBits = 2 := by decide
  cases hi : CodedIndex.decode? .typeDefOrRef value with
  | none =>
    rw [hi] at hdecode
    cases hdecode
  | some i =>
    rw [hi] at hdecode
    cases hdecode
    obtain ⟨table, htable, rfl⟩ := Option.map_eq_some_iff.mp hi
    rw [hbits] at htable ⊢
    exact ⟨value, _, hvalue, htable, rfl, rfl⟩

end Reader

/-! ## What is gathered by tokens -/

namespace OpenModule

variable (m : OpenModule)

/-- **A row is marked** by the attributes in question that are about a row of its table whose number
agrees with its own in 24 bits. -/
lemma isGenerated_token_iff (table : TableId) (rid : ℕ) :
    m.indexed.isGenerated (table.token rid) = true ↔
      ∃ attr ∈ m.customAttributes.rows, attr.parent.table = table ∧
        attr.parent.row ≡ rid [MOD 2 ^ 24] ∧
        m.indexed.attributeType? m.memberRefs (m.indexed.methodRuns m.indexed.typeDefs.rows)
          attr.maker = some generatedAttribute := by
  rw [isGenerated_iff]
  simp only [CodedIndex.token, TableId.token_eq_token_iff, and_assoc]

/-- The number and the name of a row of generic parameters, if its name can be read. -/
def namedParameter? (row : GenericParamRow) : Option (ℕ × String) :=
  (m.strings.get row.name).toOption.map (row.number, ·)

/-- **The generic parameters of a row** are those of an owner in its table whose number agrees with
its own in 24 bits. -/
lemma parametersOf_eq (owners : TableId) (owner : ℕ) :
    m.parametersOf owners owner =
      (m.genericParams.rows.filter fun row =>
        row.owner.table = owners ∧ row.owner.row % 2 ^ 24 = owner).filterMap
          m.namedParameter? := by
  rw [parametersOf, List.filterMap_filter]
  apply List.filterMap_congr
  intro row _
  rw [parameterOf?, CodedIndex.token, TableId.row_token, namedParameter?]
  simp only [decide_eq_true_eq]

/-- **References by their tokens.** Whatever coded index is read, its token names the table that the
tag selects, and of the row it keeps 24 bits: it names this row exactly if the number of the row has
no more. The token of a compressed integer names the table that its tag selects, and the row
exactly if the number has no more than 26 bits. Two references share a token exactly if they are to
the same table and their rows agree in 24 bits. So a row is marked by all attributes in question
that are about a row of its table that agrees with it in 24 bits, and the type parameters of a type,
as well as those of a method, have the names of all readable rows of generic parameters whose owner
agrees with it in 24 bits, in the order of their numbers.

**Proof sketch.** Tokens are put together from a table and 24 bits of a row (`row_token`), and marks
and generic parameters are gathered by tokens. -/
theorem references_by_token (m : OpenModule) :
    (∀ (layout : Layout) (kind : CodedKind) (c c' : Cursor) (i : CodedIndex),
      (Reader.coded layout kind).run c = .ok i c' →
        ∃ value, (Reader.word (layout.codedWidth kind)).run c = .ok value c' ∧
          kind.tables[value % 2 ^ kind.tagBits]? = some i.table ∧ i.row = value >>> kind.tagBits ∧
          i.token.table = i.table.number ∧ i.token.row = i.row % 2 ^ 24 ∧
          (i.token.row = i.row ↔ i.row < 2 ^ 24)) ∧
    (∀ (c c' : Cursor) (token : Token), Reader.compressedToken.run c = .ok token c' →
      ∃ value table, Reader.compressed.run c = .ok value c' ∧
        CodedKind.typeDefOrRef.tables[value % 4]? = some table ∧ token.table = table.number ∧
        token.row = (value >>> 2) % 2 ^ 24 ∧ (token.row = value >>> 2 ↔ value < 2 ^ 26)) ∧
    (∀ i j : CodedIndex, i.token = j.token ↔ i.table = j.table ∧ i.row ≡ j.row [MOD 2 ^ 24]) ∧
    (∀ (table : TableId) (rid : ℕ),
      m.indexed.isGenerated (table.token rid) = true ↔
        ∃ attr ∈ m.customAttributes.rows, attr.parent.table = table ∧
          attr.parent.row ≡ rid [MOD 2 ^ 24] ∧
          m.indexed.attributeType? m.memberRefs (m.indexed.methodRuns m.indexed.typeDefs.rows)
            attr.maker = some generatedAttribute) ∧
    ∀ owner rid,
      IsInOrder
        ((m.genericParams.rows.filter fun row =>
          row.owner.table = .typeDef ∧ row.owner.row % 2 ^ 24 = owner).filterMap m.namedParameter?)
        (m.indexed.fieldScope owner).typeParameters ∧
      IsInOrder
        ((m.genericParams.rows.filter fun row =>
          row.owner.table = .methodDef ∧ row.owner.row % 2 ^ 24 = rid).filterMap m.namedParameter?)
        (m.indexed.methodScope owner rid).methodParameters := by
  refine ⟨fun layout kind c c' i hread => ?_, fun c c' token hread => ?_,
    fun i j => CodedIndex.token_eq_token_iff, m.isGenerated_token_iff, fun owner rid => ⟨?_, ?_⟩⟩
  · obtain ⟨value, hvalue, htable, hrow⟩ := Reader.run_coded_eq_ok hread
    have htoken : i.token.row = i.row % 2 ^ 24 := TableId.row_token i.table i.row
    refine ⟨value, hvalue, htable, hrow, TableId.table_token i.table i.row, htoken, ?_⟩
    rw [htoken, mod_two_pow_eq_self_iff]
  · obtain ⟨value, i, hvalue, htable, hrow, rfl⟩ := Reader.run_compressedToken_eq_ok hread
    have htoken : i.token.row = (value >>> 2) % 2 ^ 24 := hrow ▸ TableId.row_token i.table i.row
    refine ⟨value, i.table, hvalue, htable, TableId.table_token i.table i.row, htoken, ?_⟩
    rw [htoken, mod_two_pow_eq_self_iff, Nat.shiftRight_eq_div_pow]
    omega
  · rw [← parametersOf_eq]
    exact m.isInOrder_genericNames .typeDef owner
  · rw [← parametersOf_eq]
    exact m.isInOrder_genericNames .methodDef rid

end OpenModule

/-! ## Rows that share a token -/

/-- The layout of a module with so many references to other modules that what carries an attribute
is stored in four bytes. -/
def manyModuleRefsLayout : Layout where
  rowCount t := if t = .moduleRef then 2048 else 1
  wideStrings := false
  wideGuids := false
  wideBlobs := false

/-- **Two different rows have the same token.** Rows `0x1000001` and 1 of the types are referred to
by different bytes, in the table of attributes as well as in a signature, and come out as one token.
So an attribute that is about the first row marks the second one. -/
theorem CodedIndex.rows_share_token :
    (Reader.coded manyModuleRefsLayout .hasCustomAttribute).runOn ⟨#[0x23, 0x00, 0x00, 0x20]⟩ =
        .ok ⟨.typeDef, 0x1000001⟩ ∧
      (Reader.coded manyModuleRefsLayout .hasCustomAttribute).runOn ⟨#[0x23, 0x00, 0x00, 0x00]⟩ =
        .ok ⟨.typeDef, 1⟩ ∧
      CodedIndex.token ⟨.typeDef, 0x1000001⟩ = CodedIndex.token ⟨.typeDef, 1⟩ ∧
      (CodedIndex.token ⟨.typeDef, 0x1000001⟩).row = 1 ∧
      Reader.compressed.runOn ⟨#[0xC4, 0x00, 0x00, 0x04]⟩ = .ok 0x4000004 ∧
      Reader.compressedToken.runOn ⟨#[0xC4, 0x00, 0x00, 0x04]⟩ = .ok (TableId.typeDef.token 1) ∧
      (0x4000004 >>> 2 = 0x1000001 ∧ (TableId.typeDef.token 1).row = 1) ∧
      ∀ m : OpenModule, ∀ attr ∈ m.customAttributes.rows,
        attr.parent = ⟨.typeDef, 0x1000001⟩ →
        m.indexed.attributeType? m.memberRefs (m.indexed.methodRuns m.indexed.typeDefs.rows)
          attr.maker = some generatedAttribute →
        m.indexed.isGenerated (TableId.typeDef.token 1) = true := by
  refine ⟨by rfl, by rfl, by decide, by decide, by rfl, by rfl, by decide, ?_⟩
  intro m attr hattr hparent htype
  refine (m.isGenerated_token_iff .typeDef 1).mpr ⟨attr, hattr, ?_, ?_, htype⟩
  · rw [hparent]
  · rw [hparent]
    decide

end TypeInventory
