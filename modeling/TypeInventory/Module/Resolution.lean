import TypeInventory.Diagnostic

set_option relaxedAutoImplicit false
set_option autoImplicit false

/-!
# Resolutions

Resolving a part of a module gives a value or fails, and on the way there may be warnings. The
warnings that came before a failure are kept.

## Main definitions

* `Resolution` — warnings in order, then a value or a fault; a monad.
* `Resolution.warn`, `Resolution.ofExcept` — a warning, and a result without warnings.
* `Resolution.forEach` — resolving the members of a list in order, up to the first that fails.

## Main results

* `Resolution.forEach_cons` — resolving a list is resolving its head, then its tail.
-/

namespace TypeInventory

/-- The outcome of resolving something: warnings in order, then a value or a fault. -/
structure Resolution (α : Type) where
  /-- The warnings, first one first. -/
  warnings : List Diagnostic
  /-- The value, or the fault that stopped the resolution. -/
  result : Except Fault α

namespace Resolution

variable {α β : Type}

/-- A value without warnings. -/
protected def pure (a : α) : Resolution α :=
  ⟨[], .ok a⟩

/-- One resolution after another. The second does not take place if the first one fails. -/
protected def bind (x : Resolution α) (f : α → Resolution β) : Resolution β :=
  match x.result with
  | .ok a => ⟨x.warnings ++ (f a).warnings, (f a).result⟩
  | .error e => ⟨x.warnings, .error e⟩

instance : Monad Resolution where
  pure := Resolution.pure
  bind := Resolution.bind

/-- A result without warnings. -/
def ofExcept (x : Except Fault α) : Resolution α :=
  ⟨[], x⟩

instance : MonadLift (Except Fault) Resolution :=
  ⟨ofExcept⟩

/-- Warnings and a value. -/
def withWarnings (ws : List Diagnostic) (a : α) : Resolution α :=
  ⟨ws, .ok a⟩

/-- Resolves the members of a list in order behind the warnings `ws` and the values `done`, both
with the last one first. -/
def forEachInto (f : α → Resolution β) (ws : List Diagnostic) (done : List β) :
    List α → Resolution (List β)
  | [] => ⟨ws.reverse, .ok done.reverse⟩
  | a :: as =>
    let r := f a
    match r.result with
    | .ok b => forEachInto f (r.warnings.reverse ++ ws) (b :: done) as
    | .error e => ⟨(r.warnings.reverse ++ ws).reverse, .error e⟩

/-- Resolves the members of a list in order, up to the first that fails. -/
def forEach (f : α → Resolution β) (as : List α) : Resolution (List β) :=
  forEachInto f [] [] as

/-! ## Laws -/

theorem forEachInto_eq (f : α → Resolution β) (ws : List Diagnostic) (done : List β)
    (as : List α) :
    forEachInto f ws done as =
      ⟨ws.reverse ++ (forEach f as).warnings, (done.reverse ++ ·) <$> (forEach f as).result⟩ := by
  induction as generalizing ws done with
  | nil => simp [forEach, forEachInto, Functor.map, Except.map]
  | cons a as ih =>
    simp only [forEach, forEachInto]
    cases (f a).result with
    | error e => simp [Functor.map, Except.map]
    | ok b =>
      simp only
      rw [ih ((f a).warnings.reverse ++ ws) (b :: done), ih ((f a).warnings.reverse ++ []) [b]]
      cases (forEach f as).result <;> simp [Functor.map, Except.map]

/-- Resolving a list is resolving its head, then its tail. -/
theorem forEach_cons (f : α → Resolution β) (a : α) (as : List α) :
    forEach f (a :: as) = (do
      let b ← f a
      let bs ← forEach f as
      return b :: bs) := by
  simp only [forEach, forEachInto, Bind.bind, Resolution.bind]
  cases (f a).result with
  | error e => simp
  | ok b =>
    simp only
    rw [forEachInto_eq f _ [b] as]
    simp only [forEach]
    cases (forEachInto f [] [] as).result <;>
      simp [Functor.map, Except.map, Pure.pure, Resolution.pure]

end Resolution

end TypeInventory
