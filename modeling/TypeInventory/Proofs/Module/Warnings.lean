import Mathlib
import TypeInventory.Module.Loading

set_option relaxedAutoImplicit false
set_option autoImplicit false

/-!
# What resolutions give

A resolution gives a value or a fault, and warnings in front of it. This module has the laws by
which both are followed through a sequence of steps: a sequence gives a value when all of its steps
do, and its warnings are those of its steps.

## Main definitions

* `Resolution.WarnsOf` — resolutions all of whose warnings have a property.
* `Resolution.Harmless` — resolutions whose warnings are no errors.
* `Diagnostic.IsRunWarning` — warnings about runs of members.

## Main results

* `Resolution.result_bind_eq_ok_iff` — one step after another gives a value.
* `Resolution.warnsOf_bind`, `Resolution.warnsOf_forEach` — the warnings of steps.
* `MetadataModule.resolveType_warnsOf` — resolving a type warns of runs of members only.
* `MetadataModule.resolveType_harmless` — resolving a type leaves no errors among its warnings.
* `MetadataModule.resolveType_eq_ok` — a resolved type has the token of its row, and only the one
  that holds what belongs to no type is not listed.
-/

namespace TypeInventory

namespace Resolution

variable {α β : Type}

/-! ## Values -/

/-- One step after another gives a value when the first does and the second does with it. -/
lemma result_bind_eq_ok_iff {x : Resolution α} {f : α → Resolution β} {b : β} :
    (x >>= f).result = .ok b ↔ ∃ a, x.result = .ok a ∧ (f a).result = .ok b := by
  change (Resolution.bind x f).result = .ok b ↔ _
  unfold Resolution.bind
  cases hx : x.result with
  | ok a => simp
  | error e => simp

/-! ## Warnings -/

/-- All warnings are as `p` says. -/
def WarnsOf (p : Diagnostic → Prop) (r : Resolution α) : Prop :=
  ∀ d ∈ r.warnings, p d

/-- None of the warnings is an error. -/
def Harmless (r : Resolution α) : Prop :=
  ∀ d ∈ r.warnings, d.severity ≠ .error

variable {p : Diagnostic → Prop}

/-- A value alone has no warnings. -/
lemma warnsOf_pure (a : α) : (pure a : Resolution α).WarnsOf p := by
  intro d hd
  cases hd

/-- A result has no warnings. -/
lemma warnsOf_ofExcept (x : Except Fault α) : (ofExcept x).WarnsOf p := by
  intro d hd
  cases hd

/-- A result, as a step, has no warnings. -/
lemma warnsOf_liftM (x : Except Fault α) : (liftM x : Resolution α).WarnsOf p :=
  warnsOf_ofExcept x

/-- The warnings of one step after another are those of the steps. -/
lemma warnsOf_bind {x : Resolution α} {f : α → Resolution β} (hx : x.WarnsOf p)
    (hf : ∀ a, (f a).WarnsOf p) : (x >>= f).WarnsOf p := by
  change (Resolution.bind x f).WarnsOf p
  unfold Resolution.bind
  cases x.result with
  | ok a =>
    intro d hd
    rcases List.mem_append.mp hd with hd | hd
    · exact hx d hd
    · exact hf a d hd
  | error e => exact hx

/-- The warnings of steps for all members of a list are those of the steps. -/
lemma warnsOf_forEach {f : α → Resolution β} (hf : ∀ a, (f a).WarnsOf p) (as : List α) :
    (forEach f as).WarnsOf p := by
  induction as with
  | nil => exact warnsOf_pure _
  | cons a as ih =>
    rw [forEach_cons]
    exact warnsOf_bind (hf a) fun _ => warnsOf_bind ih fun _ => warnsOf_pure _

end Resolution

open Resolution

/-! ## Members and types -/

/-- A warning about a run of members. -/
def Diagnostic.IsRunWarning (d : Diagnostic) : Prop :=
  ∃ list owner start stop count, d = runWarning list owner start stop count

/-- The warnings of a run of members are about runs. -/
lemma ModuleTables.memberRun_warnsOf (m : ModuleTables) (list : MemberList) (owner : Token)
    (start : ℕ) (next? : Option ℕ) :
    (m.memberRun list owner start next?).WarnsOf Diagnostic.IsRunWarning := by
  unfold memberRun
  intro d hd
  simp only at hd
  split_ifs at hd
  · exact ⟨_, _, _, _, _, List.mem_singleton.mp hd⟩
  · exact ⟨_, _, _, _, _, List.mem_singleton.mp hd⟩
  · cases hd

namespace MetadataModule

variable (m : MetadataModule)

/-- The warnings of a method are about runs. -/
lemma resolveMethod_warnsOf (typeParameters : List String) (rid : ℕ) :
    (m.resolveMethod typeParameters rid).WarnsOf Diagnostic.IsRunWarning := by
  unfold resolveMethod
  split
  · exact warnsOf_ofExcept _
  · refine warnsOf_bind (warnsOf_liftM _) fun name => ?_
    split_ifs
    · exact warnsOf_pure _
    · refine warnsOf_bind (warnsOf_liftM _) fun blob => ?_
      refine warnsOf_bind (warnsOf_liftM _) fun sig => ?_
      refine warnsOf_bind (warnsOf_liftM _) fun returnType => ?_
      refine warnsOf_bind (m.memberRun_warnsOf _ _ _ _) fun run => ?_
      exact warnsOf_bind (warnsOf_ofExcept _) fun parameters => warnsOf_pure _

/-- The warnings of a type are about runs. -/
lemma resolveType_warnsOf (row : TypeDefRow) :
    (m.resolveType row).WarnsOf Diagnostic.IsRunWarning := by
  unfold resolveType
  refine warnsOf_bind (warnsOf_liftM _) fun name => ?_
  split_ifs
  · exact warnsOf_pure _
  · refine warnsOf_bind (warnsOf_liftM _) fun fullName => ?_
    refine warnsOf_bind (warnsOf_liftM _) fun kind => ?_
    refine warnsOf_bind (m.memberRun_warnsOf _ _ _ _) fun fieldRows => ?_
    refine warnsOf_bind (warnsOf_forEach (fun _ => warnsOf_ofExcept _) _) fun fields => ?_
    refine warnsOf_bind (m.memberRun_warnsOf _ _ _ _) fun methodRows => ?_
    exact warnsOf_bind (warnsOf_forEach (m.resolveMethod_warnsOf _) _) fun _ => warnsOf_pure _

/-- Resolving a type leaves no error among its warnings. -/
lemma resolveType_harmless (row : TypeDefRow) : (m.resolveType row).Harmless := by
  intro d hd
  obtain ⟨list, owner, start, stop, count, rfl⟩ := m.resolveType_warnsOf row d hd
  simp [runWarning]

/-- The type with the name for what belongs to no type is resolved, and not listed. -/
lemma resolveType_of_moduleTypeName {row : TypeDefRow}
    (h : m.strings.get row.typeName = .ok moduleTypeName) :
    (m.resolveType row).result = .ok none := by
  unfold resolveType
  refine result_bind_eq_ok_iff.mpr ⟨moduleTypeName, h, ?_⟩
  rw [if_pos rfl]
  rfl

/-- A type that is resolved has a name. It is not listed if this is the name for what belongs to no
type; else it is listed with the token of its row. -/
lemma resolveType_eq_ok {row : TypeDefRow} {type? : Option TypeInfo}
    (h : (m.resolveType row).result = .ok type?) :
    ∃ name, m.strings.get row.typeName = .ok name ∧
      ((name = moduleTypeName ∧ type? = none) ∨
        (name ≠ moduleTypeName ∧ ∃ type, type? = some type ∧ type.token = row.token)) := by
  unfold resolveType at h
  obtain ⟨name, hname, h⟩ := result_bind_eq_ok_iff.mp h
  refine ⟨name, hname, ?_⟩
  split_ifs at h with hmodule
  · cases h
    exact .inl ⟨hmodule, rfl⟩
  · obtain ⟨fullName, -, h⟩ := result_bind_eq_ok_iff.mp h
    obtain ⟨kind, -, h⟩ := result_bind_eq_ok_iff.mp h
    obtain ⟨fieldRows, -, h⟩ := result_bind_eq_ok_iff.mp h
    obtain ⟨fields, -, h⟩ := result_bind_eq_ok_iff.mp h
    obtain ⟨methodRows, -, h⟩ := result_bind_eq_ok_iff.mp h
    obtain ⟨methods, -, h⟩ := result_bind_eq_ok_iff.mp h
    cases h
    exact .inr ⟨hmodule, _, rfl, rfl⟩

end MetadataModule

end TypeInventory
