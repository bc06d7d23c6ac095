import TypeInventory.Proofs.Module.Completeness

set_option relaxedAutoImplicit false
set_option autoImplicit false

/-!
# Types resolved at once

The types of a module are resolved by calls that may run at once, one for each type definition.
What they share are the diagnostics: a call pushes its warnings, one at a time, and then hands in
its result. How the calls take turns is left open, also how far a call comes before another one
starts. When all of them have ended, the results are collected in the order of definition. This
module describes such loads step by step, and says what they have in common. A push is one step: of
two entries that are pushed at once, one comes first, and none is lost.

## Main definitions

* `TypeCall`, `TypeCall.Step` — a call on the way, and what it does in one step.
* `CallEvent`, `eventsOf` — the steps of all calls, and those of one of them.
* `CallPool`, `CallPool.Step`, `CallPool.Run` — all calls with the diagnostics that they share.
* `LoadedModule.collect`, `OpenModule.LoadsBy` — the collection of the results, and whole loads.
* `CallPool.Agrees` — what the calls have done agrees with what they had to do.

## Main results

* `CallPool.Agrees.step`, `CallPool.agrees_of_run` — every step, and hence every run, keeps this
  agreement.
* `CallPool.exists_run_of_eventsOf` — the calls may take turns in any way.
* `OpenModule.loads_alike` — what all loads of a module have in common.
-/

namespace TypeInventory

/-! ## Calls -/

/-- A call that resolves a type definition, on the way. -/
inductive TypeCall where
  /-- It still has to do what a resolution tells. -/
  | running (row : TypeDefRow) (rest : Resolution (Option TypeInfo))
  /-- It has handed in its result. -/
  | ended (row : TypeDefRow) (result : Except Fault (Option TypeInfo))

namespace TypeCall

/-- One step of a call: it pushes the first of its warnings, or, if none is left, hands in its
result. -/
inductive Step : TypeCall → Option Diagnostic → TypeCall → Prop where
  /-- A warning is pushed. -/
  | push (row : TypeDefRow) (d : Diagnostic) (ds : List Diagnostic)
    (result : Except Fault (Option TypeInfo)) :
    Step (running row ⟨d :: ds, result⟩) (some d) (running row ⟨ds, result⟩)
  /-- The result is handed in. -/
  | handIn (row : TypeDefRow) (result : Except Fault (Option TypeInfo)) :
    Step (running row ⟨[], result⟩) none (ended row result)

/-- What a call still has to do: the entries that it pushes, and that it hands in its result. -/
def todo : TypeCall → List (Option Diagnostic)
  | running _ rest => rest.warnings.map some ++ [none]
  | ended _ _ => []

/-- The entries that a call pushes are the warnings of the resolution. -/
lemma reduceOption_todo_running (row : TypeDefRow) (rest : Resolution (Option TypeInfo)) :
    (running row rest).todo.reduceOption = rest.warnings := by
  simp [todo, List.reduceOption]

/-- The definition of a call, and the result that it hands in sooner or later. -/
def outcome : TypeCall → TypeDefRow × Except Fault (Option TypeInfo)
  | running row rest => (row, rest.result)
  | ended row result => (row, result)

/-- The definition of a call with its result, if it has handed it in. -/
def result? : TypeCall → Option (TypeDefRow × Except Fault (Option TypeInfo))
  | running _ _ => none
  | ended row result => some (row, result)

variable {call call' : TypeCall} {pushed? : Option Diagnostic}

/-- A step does the first thing that is to be done. -/
lemma todo_of_step (h : call.Step pushed? call') : call.todo = pushed? :: call'.todo := by
  cases h <;> rfl

/-- No step changes what becomes of the definition. -/
lemma outcome_of_step (h : call.Step pushed? call') : call'.outcome = call.outcome := by
  cases h <;> rfl

/-- The first thing to be done can be done at once. -/
lemma exists_step_of_todo {rest : List (Option Diagnostic)} (h : call.todo = pushed? :: rest) :
    ∃ call', call.Step pushed? call' ∧ call'.todo = rest := by
  cases call with
  | ended row result => cases h
  | running row resolution =>
    obtain ⟨warnings, result⟩ := resolution
    cases warnings with
    | nil =>
      cases h
      exact ⟨_, .handIn row result, rfl⟩
    | cons d ds =>
      cases h
      exact ⟨_, .push row d ds result, rfl⟩

/-- A call has handed in its result when there is nothing left to be done. -/
lemma result?_eq_some_iff {result : TypeDefRow × Except Fault (Option TypeInfo)} :
    call.result? = some result ↔ call.todo = [] ∧ call.outcome = result := by
  cases call with
  | running row rest => simp [result?, todo]
  | ended row result => simp [result?, todo, outcome]

end TypeCall

/-! ## Steps of all calls -/

/-- A step of one of the calls. -/
structure CallEvent where
  /-- The number of the call. -/
  call : ℕ
  /-- The entry that is pushed; nothing if a result is handed in. -/
  pushed? : Option Diagnostic
deriving DecidableEq, Repr

/-- What one call does in a row of steps. -/
def eventsOf (trace : List CallEvent) (i : ℕ) : List (Option Diagnostic) :=
  (trace.filter fun event => event.call = i).map CallEvent.pushed?

section Events

variable {trace trace' : List CallEvent} {event : CallEvent} {i : ℕ}

lemma eventsOf_append (trace trace' : List CallEvent) (i : ℕ) :
    eventsOf (trace ++ trace') i = eventsOf trace i ++ eventsOf trace' i := by
  rw [eventsOf, List.filter_append, List.map_append, eventsOf, eventsOf]

lemma eventsOf_cons_self (i : ℕ) (pushed? : Option Diagnostic) (trace : List CallEvent) :
    eventsOf (⟨i, pushed?⟩ :: trace) i = pushed? :: eventsOf trace i := by
  rw [eventsOf, List.filter_cons_of_pos (by simp), List.map_cons, eventsOf]

lemma eventsOf_cons_of_ne (h : event.call ≠ i) :
    eventsOf (event :: trace) i = eventsOf trace i := by
  rw [eventsOf, List.filter_cons_of_neg (by simpa using h), eventsOf]

/-- Each step is one of those of its call. -/
lemma mem_eventsOf (h : event ∈ trace) : event.pushed? ∈ eventsOf trace event.call :=
  List.mem_map_of_mem (List.mem_filter.mpr ⟨h, decide_eq_true rfl⟩)

/-- A step occurs as often among all steps as among those of its call. -/
lemma count_eq_count_eventsOf (trace : List CallEvent) (event : CallEvent) :
    trace.count event = (eventsOf trace event.call).count event.pushed? := by
  obtain ⟨i, pushed?⟩ := event
  induction trace with
  | nil => rfl
  | cons first trace ih =>
    obtain ⟨j, first?⟩ := first
    by_cases h : j = i
    · subst h
      rw [eventsOf_cons_self, List.count_cons, List.count_cons, ih]
      simp
    · rw [eventsOf_cons_of_ne h, List.count_cons_of_ne (by simp [h]), ih]

/-- Calls that do the same in a different order of turns do the same in all. -/
lemma perm_of_eventsOf_eq (h : ∀ i, eventsOf trace i = eventsOf trace' i) : trace.Perm trace' := by
  rw [List.perm_iff_count]
  intro event
  rw [count_eq_count_eventsOf, count_eq_count_eventsOf, h]

/-- Steps of one call are steps of no other one. -/
lemma eventsOf_map_mk (k : ℕ) (entries : List (Option Diagnostic)) (i : ℕ) :
    eventsOf (entries.map (CallEvent.mk k)) i = if i = k then entries else [] := by
  induction entries with
  | nil => simp [eventsOf]
  | cons pushed? entries ih =>
    rw [List.map_cons]
    split_ifs at ih ⊢ with h
    · rw [h] at ih ⊢
      rw [eventsOf_cons_self, ih]
    · rw [eventsOf_cons_of_ne (Ne.symm h), ih]

/-- What calls do one after another, if they are numbered from `k` on. -/
def oneByOne (k : ℕ) : List TypeCall → List CallEvent
  | [] => []
  | call :: calls => call.todo.map (CallEvent.mk k) ++ oneByOne (k + 1) calls

/-- Among these steps, those of a call are what it has to do. -/
lemma eventsOf_oneByOne (k : ℕ) (calls : List TypeCall) (i : ℕ) :
    eventsOf (oneByOne k calls) i =
      if i < k then [] else (calls[i - k]?).elim [] TypeCall.todo := by
  induction calls generalizing k with
  | nil => simp [oneByOne, eventsOf]
  | cons call calls ih =>
    rw [oneByOne, eventsOf_append, eventsOf_map_mk, ih]
    rcases Nat.lt_trichotomy i k with hlt | rfl | hgt
    · rw [if_neg hlt.ne, if_pos (Nat.lt_succ_of_lt hlt), if_pos hlt]
      rfl
    · rw [if_pos rfl, if_pos (Nat.lt_succ_self i), if_neg (Nat.lt_irrefl i), Nat.sub_self]
      exact List.append_nil _
    · obtain ⟨j, rfl⟩ : ∃ j, i = k + 1 + j := ⟨i - (k + 1), by omega⟩
      rw [if_neg (by omega), if_neg (by omega), if_neg (by omega), Nat.add_sub_cancel_left,
        show k + 1 + j - k = j + 1 by omega]
      rfl

/-- The entries that are pushed by calls one after another. -/
lemma filterMap_oneByOne (k : ℕ) (calls : List TypeCall) :
    (oneByOne k calls).filterMap CallEvent.pushed? =
      calls.flatMap fun call => call.todo.reduceOption := by
  induction calls generalizing k with
  | nil => rfl
  | cons call calls ih =>
    rw [oneByOne, List.filterMap_append, ih, List.flatMap_cons, List.filterMap_map]
    rfl

end Events

/-! ## All calls at once -/

/-- All calls with the diagnostics that they share. -/
structure CallPool where
  /-- The calls, in the order of definition. -/
  calls : List TypeCall
  /-- The diagnostics, the first one first. -/
  diagnostics : List Diagnostic

namespace CallPool

/-- One of the calls makes a step. The entry that it pushes, if any, comes behind those that are
there. -/
inductive Step : CallPool → CallEvent → CallPool → Prop where
  /-- A step of call `i`. -/
  | of {s : CallPool} {i : ℕ} {call call' : TypeCall} {pushed? : Option Diagnostic}
    (hcall : s.calls[i]? = some call) (hstep : call.Step pushed? call') :
    Step s ⟨i, pushed?⟩ ⟨s.calls.set i call', s.diagnostics ++ pushed?.toList⟩

/-- Any number of steps, in their order. -/
inductive Run : CallPool → List CallEvent → CallPool → Prop where
  /-- No step. -/
  | refl (s : CallPool) : Run s [] s
  /-- One more step. -/
  | tail {s s' s'' : CallPool} {trace : List CallEvent} {event : CallEvent}
    (hrun : Run s trace s') (hstep : Step s' event s'') : Run s (trace ++ [event]) s''

/-- What call `i` still has to do. -/
def todo (s : CallPool) (i : ℕ) : List (Option Diagnostic) :=
  (s.calls[i]?).elim [] TypeCall.todo

/-- The results of all calls in the order of definition, if all of them have handed in theirs. -/
def results? (s : CallPool) : Option (List (TypeDefRow × Except Fault (Option TypeInfo))) :=
  s.calls.mapM TypeCall.result?

variable {s s' s'' start : CallPool} {trace : List CallEvent} {event : CallEvent}

/-- What is to be done after a step: the call that makes it has done its first thing. -/
lemma todo_of_step (h : s.Step event s') (i : ℕ) :
    s.todo i = eventsOf [event] i ++ s'.todo i := by
  cases h with
  | @of j call call' pushed? hcall hstep =>
    have hlt : j < s.calls.length := (List.getElem?_eq_some_iff.mp hcall).1
    by_cases h : j = i
    · subst h
      rw [eventsOf_cons_self, todo, todo, hcall, List.getElem?_set_self hlt]
      exact TypeCall.todo_of_step hstep
    · rw [eventsOf_cons_of_ne h, todo, todo, List.getElem?_set_ne h]
      rfl

/-- What call `i` has to do first can be done at once. -/
lemma exists_step_of_todo {i : ℕ} {pushed? : Option Diagnostic} {rest : List (Option Diagnostic)}
    (h : s.todo i = pushed? :: rest) : ∃ s', s.Step ⟨i, pushed?⟩ s' := by
  rw [todo] at h
  cases hcall : s.calls[i]? with
  | none =>
    rw [hcall] at h
    cases h
  | some call =>
    rw [hcall] at h
    obtain ⟨call', hstep, -⟩ := TypeCall.exists_step_of_todo h
    exact ⟨_, .of hcall hstep⟩

/-- No call has anything to do when this is so of each of them. -/
lemma todo_eq_nil_iff : (∀ i, s.todo i = []) ↔ ∀ call ∈ s.calls, call.todo = [] := by
  constructor
  · intro h call hcall
    obtain ⟨i, hi⟩ := List.mem_iff_getElem?.mp hcall
    have hdone := h i
    rwa [todo, hi] at hdone
  · intro h i
    rw [todo]
    cases hi : s.calls[i]? with
    | none => rfl
    | some call => exact h call (List.mem_of_getElem? hi)

/-- The results of calls are there when none of them has anything to do. -/
lemma mapM_result?_eq_some_iff {calls : List TypeCall}
    {results : List (TypeDefRow × Except Fault (Option TypeInfo))} :
    calls.mapM TypeCall.result? = some results ↔
      (∀ call ∈ calls, call.todo = []) ∧ calls.map TypeCall.outcome = results := by
  induction calls generalizing results with
  | nil => simp
  | cons call calls ih =>
    simp only [List.mapM_cons, Option.bind_eq_bind, Option.bind_eq_some_iff, Option.pure_def,
      Option.some.injEq, TypeCall.result?_eq_some_iff, ih, List.forall_mem_cons, List.map_cons]
    constructor
    · rintro ⟨_, ⟨hcall, rfl⟩, _, ⟨hcalls, rfl⟩, rfl⟩
      exact ⟨⟨hcall, hcalls⟩, rfl⟩
    · rintro ⟨⟨hcall, hcalls⟩, rfl⟩
      exact ⟨_, ⟨hcall, rfl⟩, _, ⟨hcalls, rfl⟩, rfl⟩

/-- The results are there when no call has anything to do. -/
lemma results?_eq_some_iff {results : List (TypeDefRow × Except Fault (Option TypeInfo))} :
    s.results? = some results ↔ (∀ i, s.todo i = []) ∧ s.calls.map TypeCall.outcome = results := by
  rw [results?, mapM_result?_eq_some_iff, todo_eq_nil_iff]

/-! ## Agreement -/

variable (start trace) in
/-- What the calls have done agrees with what they had to do at the start. -/
structure Agrees (s : CallPool) : Prop where
  /-- What each call has done, and what it still has to do, is what it had to do. -/
  todo : ∀ i, eventsOf trace i ++ s.todo i = start.todo i
  /-- The same becomes of each definition. -/
  outcomes : s.calls.map TypeCall.outcome = start.calls.map TypeCall.outcome
  /-- What was pushed was added to the diagnostics, and nothing else. -/
  diagnostics : s.diagnostics = start.diagnostics ++ trace.filterMap CallEvent.pushed?

/-- **Every step keeps the agreement.** -/
lemma Agrees.step (h : Agrees start trace s) (hstep : s.Step event s') :
    Agrees start (trace ++ [event]) s' := by
  refine ⟨fun i => ?_, ?_, ?_⟩
  · rw [eventsOf_append, List.append_assoc, ← todo_of_step hstep, h.todo]
  · rw [← h.outcomes]
    cases hstep with
    | @of i call call' pushed? hcall hstep =>
      obtain ⟨hlt, rfl⟩ := List.getElem?_eq_some_iff.mp hcall
      have hmap : i < (s.calls.map TypeCall.outcome).length := by rwa [List.length_map]
      rw [List.map_set, TypeCall.outcome_of_step hstep, ← List.getElem_map _ (h := hmap),
        List.set_getElem_self]
  · cases hstep with
    | @of i call call' pushed? hcall hstep =>
      rw [h.diagnostics, List.filterMap_append, List.append_assoc]
      cases pushed? <;> rfl

/-- **Every run keeps it**, from the start on.

**Proof sketch.** By induction on the steps. -/
lemma agrees_of_run (h : start.Run trace s) : Agrees start trace s := by
  induction h with
  | refl => exact ⟨fun i => rfl, rfl, (List.append_nil _).symm⟩
  | tail _ hstep ih => exact ih.step hstep

/-! ## Schedules -/

/-- One run after another. -/
lemma Run.trans {trace' : List CallEvent} (h : s.Run trace s') (h' : s'.Run trace' s'') :
    s.Run (trace ++ trace') s'' := by
  induction h' with
  | refl => rwa [List.append_nil]
  | tail _ hstep ih =>
    rw [← List.append_assoc]
    exact ih.tail hstep

/-- One step and then a run. -/
lemma Run.head (hstep : s.Step event s') (h : s'.Run trace s'') : s.Run (event :: trace) s'' :=
  ((Run.refl s).tail hstep).trans h

/-- **The calls may take turns in any way** in which each of them does what it has to do.

**Proof sketch.** By induction on the steps. The first one is what its call has to do first. -/
lemma exists_run_of_eventsOf (s : CallPool) (h : ∀ i, eventsOf trace i = s.todo i) :
    ∃ s', s.Run trace s' ∧ ∀ i, s'.todo i = [] := by
  induction trace generalizing s with
  | nil => exact ⟨s, .refl s, fun i => (h i).symm⟩
  | cons event trace ih =>
    obtain ⟨i, pushed?⟩ := event
    have hfirst := (h i).symm.trans (eventsOf_cons_self i pushed? trace)
    obtain ⟨s', hstep⟩ := exists_step_of_todo hfirst
    -- What remains of the trace is what remains to be done, of this call as of the others.
    have hrest : ∀ j, eventsOf trace j = s'.todo j := by
      intro j
      have hj := (h j).trans (todo_of_step hstep j)
      rw [← List.singleton_append, eventsOf_append] at hj
      exact List.append_cancel_left hj
    obtain ⟨s'', hrun, hdone⟩ := ih s' hrest
    exact ⟨s'', .head hstep hrun, hdone⟩

/-- What the calls still have to do may be done one call after another. -/
lemma eventsOf_oneByOne_calls (s : CallPool) (i : ℕ) :
    eventsOf (oneByOne 0 s.calls) i = s.todo i := by
  rw [eventsOf_oneByOne, if_neg (Nat.not_lt_zero i), Nat.sub_zero, todo]

end CallPool

/-! ## Loads -/

/-- The result for one definition is collected: a type joins the types, and an error about a
definition that could not be resolved joins the diagnostics. -/
def LoadedModule.collect (l : LoadedModule) :
    TypeDefRow × Except Fault (Option TypeInfo) → LoadedModule
  | (_, .ok (some type)) => { l with types := l.types ++ [type] }
  | (_, .ok none) => l
  | (row, .error e) => { l with diagnostics := l.diagnostics ++ [typeFailure row e] }

/-- The results for all definitions are collected in their order. -/
lemma LoadedModule.foldl_collect (outcomes : List TypeOutcome) (l : LoadedModule) :
    (outcomes.map fun o => (o.row, o.resolution.result)).foldl collect l =
      { l with
        types := l.types ++ outcomes.filterMap TypeOutcome.type?
        diagnostics := l.diagnostics ++ outcomes.filterMap TypeOutcome.failure? } := by
  induction outcomes generalizing l with
  | nil => simp
  | cons o outcomes ih =>
    rw [List.map_cons, List.foldl_cons, ih]
    cases hresult : o.resolution.result with
    | error e => simp [collect, TypeOutcome.type?, TypeOutcome.failure?, hresult]
    | ok type? =>
      cases type? <;> simp [collect, TypeOutcome.type?, TypeOutcome.failure?, hresult]

namespace OpenModule

variable (m : OpenModule) (find? : Option (String → Option String))

/-- The diagnostics about references and about the names of generic parameters, which are there
before any type is resolved. -/
def earlyDiagnostics : List Diagnostic :=
  (if find?.isSome then m.references else []).filterMap AssemblyReference.diagnostic? ++
    (MetadataModule.ofTables (ModuleTables.ofStreams m.strings m.blobs m.tables) m.tables).1

/-- The calls for all definitions before the first step. -/
def callPool : CallPool where
  calls := m.typeDefs.rows.map fun row => .running row (m.indexed.resolveType row)
  diagnostics := m.earlyDiagnostics find?

/-- The calls take turns as in `trace`, and when all of them have ended, their results are
collected. -/
def LoadsBy (trace : List CallEvent) (l : LoadedModule) : Prop :=
  ∃ s results, (m.callPool find?).Run trace s ∧ s.results? = some results ∧
    l = results.foldl LoadedModule.collect ⟨m.name, [], s.diagnostics⟩

/-- What the call for the definition at place `i` does: it pushes the warnings in their order, and
hands in its result. -/
def eventsAt (i : ℕ) : List (Option Diagnostic) :=
  (m.typeDefs.rows[i]?).elim [] fun row => (m.indexed.resolveType row).warnings.map some ++ [none]

lemma todo_callPool (i : ℕ) : (m.callPool find?).todo i = m.eventsAt i := by
  rw [CallPool.todo, callPool, List.getElem?_map, eventsAt]
  cases m.typeDefs.rows[i]? <;> rfl

/-- The diagnostics of a load without turns. -/
lemma diagnostics_load :
    (m.load find?).1.diagnostics =
      m.earlyDiagnostics find? ++
        (m.typeDefs.rows.flatMap fun row => (m.indexed.resolveType row).warnings) ++
        (m.typeDefs.rows.map m.outcome).filterMap TypeOutcome.failure? := by
  have hload : (m.load find?).1.diagnostics = m.earlyDiagnostics find? ++
      ((m.typeDefs.rows.map m.outcome).flatMap fun o => o.resolution.warnings) ++
      (m.typeDefs.rows.map m.outcome).filterMap TypeOutcome.failure? := rfl
  rw [hload, List.flatMap_map]
  rfl

variable {m find?} {trace : List CallEvent} {l : LoadedModule}

/-- What a load does for each definition is what the call for it does. -/
lemma LoadsBy.eventsOf_eq (h : m.LoadsBy find? trace l) (i : ℕ) :
    eventsOf trace i = m.eventsAt i := by
  obtain ⟨s, results, hrun, hresults, -⟩ := h
  have hdone := (CallPool.results?_eq_some_iff.mp hresults).1 i
  rw [← m.todo_callPool find?, ← (CallPool.agrees_of_run hrun).todo, hdone, List.append_nil]

/-- What a load gives: of all that is in it, only the order of the warnings depends on the turns. -/
lemma LoadsBy.eq (h : m.LoadsBy find? trace l) :
    l = { (m.load find?).1 with
      diagnostics := m.earlyDiagnostics find? ++ trace.filterMap CallEvent.pushed? ++
        (m.typeDefs.rows.map m.outcome).filterMap TypeOutcome.failure? } := by
  obtain ⟨s, results, hrun, hresults, rfl⟩ := h
  have hagrees := CallPool.agrees_of_run hrun
  have houtcomes : (m.callPool find?).calls.map TypeCall.outcome =
      (m.typeDefs.rows.map m.outcome).map fun o => (o.row, o.resolution.result) := by
    rw [callPool, List.map_map, List.map_map]
    rfl
  rw [← (CallPool.results?_eq_some_iff.mp hresults).2, hagrees.outcomes, houtcomes,
    LoadedModule.foldl_collect, hagrees.diagnostics]
  rfl

/-- A run of the calls that has come to its end makes a load. -/
lemma exists_loadsBy_of_run {s : CallPool} (hrun : (m.callPool find?).Run trace s)
    (hdone : ∀ i, s.todo i = []) : ∃ l, m.LoadsBy find? trace l :=
  ⟨_, s, _, hrun, CallPool.results?_eq_some_iff.mpr ⟨hdone, rfl⟩, rfl⟩

/-- **The calls may take turns in any way** in which each of them does what it has to do. -/
lemma exists_loadsBy_iff :
    (∃ l, m.LoadsBy find? trace l) ↔ ∀ i, eventsOf trace i = m.eventsAt i := by
  constructor
  · rintro ⟨l, h⟩
    exact h.eventsOf_eq
  · intro h
    obtain ⟨s, hrun, hdone⟩ := CallPool.exists_run_of_eventsOf (m.callPool find?)
      fun i => (h i).trans (m.todo_callPool find? i).symm
    exact exists_loadsBy_of_run hrun hdone

variable (m find?) in
/-- The calls may be made one after another. This gives the load without turns. -/
lemma loadsBy_oneByOne :
    m.LoadsBy find? (oneByOne 0 (m.callPool find?).calls) (m.load find?).1 := by
  have hevents : ∀ i, eventsOf (oneByOne 0 (m.callPool find?).calls) i = m.eventsAt i := by
    intro i
    rw [CallPool.eventsOf_oneByOne_calls, todo_callPool]
  obtain ⟨l, hl⟩ : ∃ l, m.LoadsBy find? _ l := exists_loadsBy_iff.mpr hevents
  have heq := hl.eq
  rw [filterMap_oneByOne, callPool, List.flatMap_map] at heq
  simp only [TypeCall.reduceOption_todo_running] at heq
  rw [← diagnostics_load] at heq
  rwa [heq] at hl

/-- What is pushed are warnings about runs of members. -/
lemma LoadsBy.isRunWarning (h : m.LoadsBy find? trace l) {d : Diagnostic}
    (hd : d ∈ trace.filterMap CallEvent.pushed?) : d.IsRunWarning := by
  obtain ⟨event, hevent, hentry⟩ := List.mem_filterMap.mp hd
  have hmem := mem_eventsOf hevent
  rw [hentry, h.eventsOf_eq, eventsAt] at hmem
  cases hrow : m.typeDefs.rows[event.call]? with
  | none =>
    rw [hrow] at hmem
    cases hmem
  | some row =>
    rw [hrow] at hmem
    have hwarning : d ∈ (m.indexed.resolveType row).warnings := by simpa using hmem
    exact m.indexed.resolveType_warnsOf row d hwarning

/-- Whatever the turns, the same diagnostics are there equally often. -/
lemma LoadsBy.perm_diagnostics (h : m.LoadsBy find? trace l) :
    l.diagnostics.Perm (m.load find?).1.diagnostics := by
  have hone := m.loadsBy_oneByOne find?
  have htrace : trace.Perm (oneByOne 0 (m.callPool find?).calls) :=
    perm_of_eventsOf_eq fun i => (h.eventsOf_eq i).trans (hone.eventsOf_eq i).symm
  rw [h.eq, hone.eq]
  exact ((htrace.filterMap _).append_left _).append_right _

/-- **Loads do not depend on the turns.** The calls for the definitions of a module may take turns
in any way in which each of them does what it has to do, and in no other way; wherever they are,
they can be brought to their end. Whatever turns they take, the load has the same types in the order
of definition. Its diagnostics are those about references and names of generic parameters, then the
warnings in the order in which they were pushed, and then an error for each definition that could
not be resolved, in the order of definition. All warnings are about runs of members, those of one
type come in their order, and in all, whatever the turns, the same diagnostics are there equally
often: those of a load that makes one call after another, which is one of these loads.

**Proof sketch.** By induction on the steps, what each call has done and what it still has to do
make up what it had to do at the start, and the diagnostics have grown by what was pushed. -/
theorem loads_alike (m : OpenModule) (find? : Option (String → Option String)) :
    (∀ trace, (∃ l, m.LoadsBy find? trace l) ↔ ∀ i, eventsOf trace i = m.eventsAt i) ∧
    (∀ trace s, (m.callPool find?).Run trace s →
      ∃ rest l, m.LoadsBy find? (trace ++ rest) l) ∧
    (∃ trace, m.LoadsBy find? trace (m.load find?).1) ∧
    ∀ trace l, m.LoadsBy find? trace l →
      l.name = (m.load find?).1.name ∧ l.types = (m.load find?).1.types ∧
      l.diagnostics = m.earlyDiagnostics find? ++ trace.filterMap CallEvent.pushed? ++
        (m.typeDefs.rows.map m.outcome).filterMap TypeOutcome.failure? ∧
      (∀ i row, m.typeDefs.rows[i]? = some row →
        (eventsOf trace i).reduceOption = (m.indexed.resolveType row).warnings) ∧
      (∀ d ∈ trace.filterMap CallEvent.pushed?, d.IsRunWarning) ∧
      l.diagnostics.Perm (m.load find?).1.diagnostics := by
  refine ⟨fun trace => exists_loadsBy_iff, fun trace s hrun => ?_, ⟨_, m.loadsBy_oneByOne find?⟩,
    fun trace l hl => ?_⟩
  · obtain ⟨s', hrest, hdone⟩ := s.exists_run_of_eventsOf s.eventsOf_oneByOne_calls
    exact ⟨_, exists_loadsBy_of_run (hrun.trans hrest) hdone⟩
  · refine ⟨by rw [hl.eq], by rw [hl.eq], by rw [hl.eq], fun i row hrow => ?_, fun d hd => ?_, ?_⟩
    · rw [hl.eventsOf_eq, eventsAt, hrow]
      exact TypeCall.reduceOption_todo_running row _
    · exact hl.isRunWarning hd
    · exact hl.perm_diagnostics

/-- Metadata with two types whose runs leave their tables. The first one is resolved with two
warnings. The second one owns a method whose signature is empty. -/
def clampedRunsMetadata : ByteArray :=
  ⟨
    #[0x42, 0x53, 0x4A, 0x42, 0x01, 0x00, 0x01, 0x00, 0x00, 0x00, 0x00, 0x00, 0x04, 0x00, 0x00,
      0x00, 0x76, 0x34, 0x00, 0x00, 0x00, 0x00, 0x03, 0x00, 0x48, 0x00, 0x00, 0x00, 0x4A, 0x00,
      0x00, 0x00, 0x23, 0x7E, 0x00, 0x00, 0x92, 0x00, 0x00, 0x00, 0x07, 0x00, 0x00, 0x00, 0x23,
      0x53, 0x74, 0x72, 0x69, 0x6E, 0x67, 0x73, 0x00, 0x00, 0x00, 0x00, 0x99, 0x00, 0x00, 0x00,
      0x01, 0x00, 0x00, 0x00, 0x23, 0x42, 0x6C, 0x6F, 0x62, 0x00, 0x00, 0x00, 0x00, 0x00, 0x00,
      0x00, 0x02, 0x00, 0x00, 0x01, 0x44, 0x00, 0x00, 0x00, 0x00, 0x00, 0x00, 0x00, 0x00, 0x00,
      0x00, 0x00, 0x00, 0x00, 0x00, 0x00, 0x02, 0x00, 0x00, 0x00, 0x01, 0x00, 0x00, 0x00, 0x00,
      0x00, 0x00, 0x00, 0x01, 0x00, 0x00, 0x00, 0x00, 0x00, 0x03, 0x00, 0x05, 0x00, 0x00, 0x00,
      0x00, 0x00, 0x03, 0x00, 0x00, 0x00, 0x00, 0x00, 0x03, 0x00, 0x01, 0x00, 0x00, 0x00, 0x00,
      0x00, 0x00, 0x00, 0x00, 0x00, 0x05, 0x00, 0x00, 0x00, 0x01, 0x00, 0x00, 0x41, 0x00, 0x42,
      0x00, 0x46, 0x00, 0x00]⟩

/-- The law for two calls that take turns: the second one pushes its warning first, and fails. -/
theorem loads_alike_clampedRunsMetadata :
    ∃ m trace l, ofMetadata clampedRunsMetadata = .ok m ∧ m.LoadsBy none trace l ∧
      trace.map CallEvent.call = [1, 0, 1, 0, 0] ∧ l.types.map TypeInfo.name = ["A"] ∧
      l.diagnostics.map (fun d => (d.severity, d.token?.map Token.row)) =
        [(.warning, some 2), (.warning, some 1), (.warning, some 1), (.error, some 2)] ∧
      (m.load none).1.diagnostics.map (fun d => (d.severity, d.token?.map Token.row)) =
        [(.warning, some 1), (.warning, some 1), (.warning, some 2), (.error, some 2)] ∧
      l.diagnostics.Perm (m.load none).1.diagnostics := by
  let fields := runWarning .field (TableId.typeDef.token 1) 3 3 0
  let methods := runWarning .method (TableId.typeDef.token 1) 5 1 1
  let fields' := runWarning .field (TableId.typeDef.token 2) 3 1 0
  let trace : List CallEvent :=
    [⟨1, some fields'⟩, ⟨0, some fields⟩, ⟨1, none⟩, ⟨0, some methods⟩, ⟨0, none⟩]
  have htest : (ofMetadata clampedRunsMetadata).toOption.any (fun m =>
      m.typeDefs.rows.map (fun row => (m.indexed.resolveType row).warnings) =
        [[fields, methods], [fields']] ∧
      (m.load none).1.types.map TypeInfo.name = ["A"] ∧
      (m.earlyDiagnostics none ++ trace.filterMap CallEvent.pushed? ++
        (m.typeDefs.rows.map m.outcome).filterMap TypeOutcome.failure?).map
          (fun d => (d.severity, d.token?.map Token.row)) =
        [(.warning, some 2), (.warning, some 1), (.warning, some 1), (.error, some 2)] ∧
      (m.load none).1.diagnostics.map (fun d => (d.severity, d.token?.map Token.row)) =
        [(.warning, some 1), (.warning, some 1), (.warning, some 2), (.error, some 2)]) = true := by
    decide +kernel
  obtain ⟨m, hopen, htest⟩ := exists_ok_of_any htest
  obtain ⟨hwarnings, htypes, hturns, hone⟩ := of_decide_eq_true htest
  have hevents : ∀ i, eventsOf trace i = m.eventsAt i := by
    intro i
    have hi : m.eventsAt i =
        ([[fields, methods], [fields']][i]?).elim [] fun ds => ds.map some ++ [none] := by
      rw [← hwarnings, List.getElem?_map, eventsAt]
      cases m.typeDefs.rows[i]? <;> rfl
    rw [hi]
    rcases i with _ | _ | i <;> rfl
  obtain ⟨hschedules, -, -, hloads⟩ := loads_alike m none
  obtain ⟨l, hl⟩ := (hschedules trace).mpr hevents
  obtain ⟨-, hsame, hdiagnostics, -, -, hperm⟩ := hloads trace l hl
  exact ⟨m, trace, l, hopen, hl, rfl, hsame ▸ htypes, hdiagnostics ▸ hturns, hone, hperm⟩

end OpenModule

end TypeInventory
