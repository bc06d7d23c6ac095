import TypeInventory.Proofs.Checked.Opening

set_option relaxedAutoImplicit false
set_option autoImplicit false

/-!
# Rows, checked

A row is found by its number: the product of the rows in front of it with their width says how far
it is from the start. A walk counts the rows that it has read. Both stay in range for every number
and every walk as long as the table has less than `2 ^ 32` rows, whatever its bytes are.

## Main definitions

* `Table.checkedGet?` — a row, with the product of 64 bits that leads to it.
* `Walk.checkedNext`, `Table.checkedRows` — rows in order, counted in 32 bits.

## Main results

* `Table.checkedGet?_eq`, `Walk.checkedNext_eq`, `Table.checkedRows_eq` — they leave no range.
-/

namespace TypeInventory

open Checked

section Rows

variable {α : Type} [MetadataRow α]

/-! ## By number -/

namespace Table

/-- Row `rid`, counted from one, unless there is no such row or it cannot be read. -/
def checkedGet? (t : Table α) (rid : ℕ) : Option (Option α) :=
  if rid = 0 ∨ t.rowCount < rid then
    some none
  else do
    let offset ← mul 64 (rid - 1) t.rowSize
    match (MetadataRow.read t.layout rid).run ⟨t.data, t.start + offset⟩ with
    | .ok row _ => some (some row)
    | .error _ _ => some none

/-- A row takes at most 36 bytes. -/
lemma rowSize_le (t : Table α) : t.rowSize ≤ 36 :=
  (OpenModule.rowSize_bounds t.layout (MetadataRow.table α)).2

/-- Finding a row by its number leaves no range: a number of 32 bits times a width of at most 36 has
far less than 64 bits. -/
lemma checkedGet?_eq {t : Table α} (h : t.rowCount < 2 ^ 32) (rid : ℕ) :
    t.checkedGet? rid = some (t.get? rid) := by
  unfold checkedGet? get?
  by_cases houtside : rid = 0 ∨ t.rowCount < rid
  · rw [if_pos houtside, if_pos houtside]
  · have hproduct : (rid - 1) * t.rowSize < 2 ^ 64 := by
      have hwidth := t.rowSize_le
      calc (rid - 1) * t.rowSize ≤ 2 ^ 32 * 36 := Nat.mul_le_mul (by omega) hwidth
        _ < 2 ^ 64 := by decide
    rw [if_neg houtside, if_neg houtside, mul_of_lt hproduct]
    simp only [Option.bind_eq_bind, Option.bind_some]
    cases (MetadataRow.read t.layout rid : Reader α).run
      ⟨t.data, t.start + (rid - 1) * t.rowSize⟩ <;> rfl

end Table

/-! ## In order -/

namespace Walk

/-- The next row, if there is one and it can be read. -/
def checkedNext (w : Walk α) : Option (Option α × Walk α) :=
  if w.rowsRead < w.table.rowCount then do
    let rid ← add 32 w.rowsRead 1
    match (MetadataRow.read w.table.layout rid).run w.cursor with
    | .ok row c => some (some row, { w with rowsRead := rid, cursor := c })
    | .error _ c => some (none, { w with cursor := c })
  else
    some (none, w)

/-- At most `n` further rows, up to the first that cannot be read, behind the rows `done`, the last
one of which comes first. -/
def checkedRowsInto (done : List α) : ℕ → Walk α → Option (List α)
  | 0, _ => some done.reverse
  | n + 1, w => do
    match ← w.checkedNext with
    | (some row, w') => checkedRowsInto (row :: done) n w'
    | (none, _) => some done.reverse

/-- A step of a walk leaves no range: what it counts is no more than the rows of the table. -/
lemma checkedNext_eq {w : Walk α} (h : w.table.rowCount < 2 ^ 32) :
    w.checkedNext = some w.next := by
  unfold checkedNext next
  by_cases hmore : w.rowsRead < w.table.rowCount
  · rw [if_pos hmore, if_pos hmore, add_of_lt (by omega)]
    simp only [Option.bind_eq_bind, Option.bind_some]
    cases (MetadataRow.read w.table.layout (w.rowsRead + 1) : Reader α).run w.cursor <;> rfl
  · rw [if_neg hmore, if_neg hmore]

/-- A step of a walk stays in its table. -/
lemma table_next (w : Walk α) : w.next.2.table = w.table := by
  unfold next
  split_ifs
  · split <;> rfl
  · rfl

/-- A walk leaves no range. By induction on how many rows may still come: each step stays in the
table, and so within its number of rows. -/
lemma checkedRowsInto_eq {w : Walk α} (h : w.table.rowCount < 2 ^ 32) (done : List α) (n : ℕ) :
    w.checkedRowsInto done n = some (w.rowsInto done n) := by
  induction n generalizing w done with
  | zero => rfl
  | succ n ih =>
    have htable : w.next.2.table.rowCount < 2 ^ 32 := by
      rw [table_next]
      exact h
    rw [checkedRowsInto, rowsInto, checkedNext_eq h]
    generalize w.next = step at htable ⊢
    obtain ⟨row?, w'⟩ := step
    cases row? with
    | none => rfl
    | some row => exact ih htable (row :: done)

end Walk

/-- The rows in order, up to the first that cannot be read. -/
def Table.checkedRows (t : Table α) : Option (List α) :=
  t.walk.checkedRowsInto [] t.rowCount

/-- Going through the rows in order leaves no range. -/
lemma Table.checkedRows_eq {t : Table α} (h : t.rowCount < 2 ^ 32) :
    t.checkedRows = some t.rows :=
  Walk.checkedRowsInto_eq h [] t.rowCount

end Rows

end TypeInventory
