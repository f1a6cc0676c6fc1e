import Mathlib.Logic.Basic

/-! Labelled transition systems whose steps may be refused. A run records the
condition under which each of its steps was taken, so that one system serves
both unconditional invariants and invariants of restricted schedules. -/

namespace Transition

variable {State Action : Type}

/-- States reached from `start` by steps that were `allowed` where they were taken. -/
inductive Reaches (step : State → Action → Option State) (allowed : State → Action → Prop)
    (start : State) : State → Prop where
  | refl : Reaches step allowed start start
  | next (earlier : Reaches step allowed start before) (permitted : allowed before action)
      (taken : step before action = some after) : Reaches step allowed start after

/-- The schedule without restrictions. -/
def anyAction (_ : State) (_ : Action) : Prop := True

/-- The schedules on which a condition never stops to hold. -/
def staying (step : State → Action → Option State) (holds : State → Prop) (before : State)
    (action : Action) : Prop :=
  ∀ after, step before action = some after → holds after

variable {step : State → Action → Option State} {allowed : State → Action → Prop} {start : State}

theorem Reaches.stayed {holds : State → Prop} (reached : Reaches step (staying step holds) start state)
    (initial : holds start) : holds state := by
  cases reached with
  | refl => exact initial
  | next _ permitted taken => exact permitted _ taken

/-- The invariant rule: what holds at the start and survives every allowed step
holds in every reached state. -/
theorem Reaches.invariant {holds : State → Prop} (reached : Reaches step allowed start state)
    (initial : holds start)
    (preserved : ∀ before action after, holds before → allowed before action →
      step before action = some after → holds after) : holds state := by
  induction reached with
  | refl => exact initial
  | next _ permitted taken ih => exact preserved _ _ _ ih permitted taken

/-- An invariant may use another invariant established earlier. -/
theorem Reaches.invariant_with {holds : State → Prop} (known : State → Prop)
    (reached : Reaches step allowed start state)
    (established : ∀ state, Reaches step allowed start state → known state)
    (initial : holds start)
    (preserved : ∀ before action after, known before → known after → holds before →
      allowed before action → step before action = some after → holds after) : holds state := by
  induction reached with
  | refl => exact initial
  | next earlier permitted taken ih =>
    exact preserved _ _ _ (established _ earlier)
      (established _ (.next earlier permitted taken)) ih permitted taken

theorem Reaches.trans (first : Reaches step allowed start middle)
    (second : Reaches step allowed middle state) : Reaches step allowed start state := by
  induction second with
  | refl => exact first
  | next _ permitted taken ih => exact .next ih permitted taken

/-- Run a schedule, refusing the first action that `ok` rejects. -/
def execute (ok : State → Action → Bool) (step : State → Action → Option State) :
    State → List Action → Option State
  | state, [] => some state
  | state, action :: rest =>
    if ok state action then (step state action).bind fun next => execute ok step next rest
    else none

theorem reaches_of_execute {ok : State → Action → Bool}
    (sound : ∀ state action, ok state action = true → allowed state action)
    (run : execute ok step start actions = some state) : Reaches step allowed start state := by
  induction actions generalizing start with
  | nil =>
    cases run
    exact .refl
  | cons action rest ih =>
    simp only [execute] at run
    split at run
    · rename_i accepted
      obtain ⟨next, taken, later⟩ := Option.bind_eq_some_iff.mp run
      exact Reaches.trans (.next .refl (sound _ _ accepted) taken) (ih later)
    · cases run

/-- Check after each step what must not stop to hold. -/
def keeping (step : State → Action → Option State) (holds : State → Prop) [DecidablePred holds]
    (before : State) (action : Action) : Bool :=
  (step before action).all fun after => holds after

theorem staying_of_keeping {holds : State → Prop} [DecidablePred holds] {before : State}
    {action : Action} (checked : keeping step holds before action = true) :
    staying step holds before action := by
  intro after taken
  simpa [keeping, taken] using checked

/-- A forward simulation: each concrete step is matched by abstract steps, or by none. -/
structure Simulation {Abstract AbstractAction : Type} (step : State → Action → Option State)
    (allowed : State → Action → Prop)
    (abstractStep : Abstract → AbstractAction → Option Abstract)
    (abstractAllowed : Abstract → AbstractAction → Prop) where
  related : State → Abstract → Prop
  forward : ∀ before action after model, related before model → allowed before action →
    step before action = some after →
    ∃ next, Reaches abstractStep abstractAllowed model next ∧ related after next

/-- Every concrete run has an abstract run to a related state. -/
theorem Simulation.reaches {Abstract AbstractAction : Type}
    {abstractStep : Abstract → AbstractAction → Option Abstract}
    {abstractAllowed : Abstract → AbstractAction → Prop} {model : Abstract}
    (simulation : Simulation step allowed abstractStep abstractAllowed)
    (initial : simulation.related start model) (reached : Reaches step allowed start state) :
    ∃ final, Reaches abstractStep abstractAllowed model final ∧ simulation.related state final := by
  induction reached with
  | refl => exact ⟨model, .refl, initial⟩
  | next _ permitted taken ih =>
    obtain ⟨middle, run, related⟩ := ih
    obtain ⟨final, more, matched⟩ := simulation.forward _ _ _ _ related permitted taken
    exact ⟨final, run.trans more, matched⟩

section Observation

variable {Event : Type} {event : State → Action → State → Option Event}

/-- The steps of a system, with what is observed of each of them, in order. -/
def observed (step : State → Action → Option State)
    (event : State → Action → State → Option Event) (before : State × List Event)
    (action : Action) : Option (State × List Event) :=
  (step before.1 action).map fun after =>
    (after, before.2 ++ (event before.1 action after).toList)

theorem observed_eq_some_iff {before after : State × List Event} {action : Action} :
    observed step event before action = some after ↔ step before.1 action = some after.1 ∧
      after.2 = before.2 ++ (event before.1 action after.1).toList := by
  rw [observed, Option.map_eq_some_iff]
  constructor
  · rintro ⟨next, taken, rfl⟩
    exact ⟨taken, rfl⟩
  · rintro ⟨taken, seen⟩
    exact ⟨after.1, taken, Prod.ext rfl seen.symm⟩

end Observation

end Transition
