import OddJob.Lib.Transition
import Mathlib.Data.List.Nodup
import Mathlib.Data.List.Perm.Subperm

/-! Operations on a resource that lets in one of them at a time. Each is code of several
steps; on any schedule the resource looks as if the operations had been run one after
another, in the order in which they were let in. -/

namespace Exclusive

open Transition

variable {Op Resource Local Outcome : Type}

/-- What an operation finds when it is let in, and each of its steps after that. -/
structure Code (Op Resource Local Outcome : Type) where
  enter : Op → Resource → Except Outcome (Resource × Local)
  step : Local → Resource → Resource × (Local ⊕ Outcome)

section Alone

variable (code : Code Op Resource Local Outcome)

/-- How far one operation may have come that found the resource as it was `before`. -/
inductive Inside (op : Op) (before : Resource) : Resource → Local → Prop where
  | entered {resource : Resource} {here : Local}
      (opened : code.enter op before = .ok (resource, here)) : Inside op before resource here
  | moved {resource next : Resource} {here there : Local}
      (earlier : Inside op before resource here)
      (taken : code.step here resource = (next, .inl there)) : Inside op before next there

/-- One operation, from the resource it found to the resource it left. -/
inductive Completes (op : Op) (before : Resource) : Outcome → Resource → Prop where
  | refused {outcome : Outcome} (closed : code.enter op before = .error outcome) :
      Completes op before outcome before
  | left {resource after : Resource} {here : Local} {outcome : Outcome}
      (inside : Inside code op before resource here)
      (taken : code.step here resource = (after, .inr outcome)) : Completes op before outcome after

/-- The operations one after another. -/
inductive Serial (start : Resource) : List (Op × Outcome) → Resource → Prop where
  | nil : Serial start [] start
  | snoc {ran : List (Op × Outcome)} {before after : Resource} {op : Op} {outcome : Outcome}
      (earlier : Serial start ran before) (completes : Completes code op before outcome after) :
      Serial start (ran ++ [(op, outcome)]) after

/-- What each operation keeps, together with its place in the order, holds after all. -/
theorem Serial.invariant {code : Code Op Resource Local Outcome} {start resource : Resource}
    {ran : List (Op × Outcome)} {holds : List (Op × Outcome) → Resource → Prop}
    (serial : Serial code start ran resource) (initial : holds [] start)
    (preserved : ∀ earlier op outcome before after, holds earlier before →
      Completes code op before outcome after → holds (earlier ++ [(op, outcome)]) after) :
    holds ran resource := by
  induction serial with
  | nil => exact initial
  | snoc _ completes ih => exact preserved _ _ _ _ _ ih completes

end Alone

/-- The calls are numbered as they are made. -/
structure Shared (Op Resource Local Outcome : Type) where
  resource : Resource
  called : List Op := []
  /-- the calls in the order in which they were let in -/
  admitted : List Nat := []
  /-- how far the last of them has come -/
  inside : Option Local := none
  /-- what the calls came to that are out again -/
  outcomes : List Outcome := []

namespace Shared

variable (shared : Shared Op Resource Local Outcome)

/-- The operations in the order in which they were let in. -/
def operations : List Op := shared.admitted.filterMap fun call => shared.called[call]?

/-- The operations that are out again, in the order in which they were let in. -/
def finished : List (Op × Outcome) := shared.operations.zip shared.outcomes

end Shared

inductive Action (Op : Type) where
  | call (op : Op)
  | attempt (call : Nat)
  | advance

/-- One step of one caller. Who is not let in may try again, any number of times. -/
def step (code : Code Op Resource Local Outcome) (shared : Shared Op Resource Local Outcome) :
    Action Op → Option (Shared Op Resource Local Outcome)
  | .call op => some { shared with called := shared.called ++ [op] }
  | .attempt call =>
    match shared.called[call]? with
    | none => none
    | some op =>
      if call ∈ shared.admitted then none
      else if shared.inside.isSome then some shared
      else match code.enter op shared.resource with
        | .error outcome => some { shared with
            admitted := shared.admitted ++ [call]
            outcomes := shared.outcomes ++ [outcome] }
        | .ok (resource, here) => some { shared with
            resource
            admitted := shared.admitted ++ [call]
            inside := some here }
  | .advance =>
    match shared.inside with
    | none => none
    | some here =>
      match code.step here shared.resource with
      | (resource, .inl there) => some { shared with resource, inside := some there }
      | (resource, .inr outcome) => some { shared with
          resource
          inside := none
          outcomes := shared.outcomes ++ [outcome] }

/-- What a step can do. -/
inductive Moves (code : Code Op Resource Local Outcome) (shared : Shared Op Resource Local Outcome) :
    Shared Op Resource Local Outcome → Prop where
  | called (op : Op) : Moves code shared { shared with called := shared.called ++ [op] }
  | waited : Moves code shared shared
  | refused (call : Nat) (op : Op) (outcome : Outcome) (known : shared.called[call]? = some op)
      (fresh : call ∉ shared.admitted) (free : shared.inside = none)
      (closed : code.enter op shared.resource = .error outcome) :
      Moves code shared { shared with
        admitted := shared.admitted ++ [call]
        outcomes := shared.outcomes ++ [outcome] }
  | entered (call : Nat) (op : Op) (resource : Resource) (here : Local)
      (known : shared.called[call]? = some op) (fresh : call ∉ shared.admitted)
      (free : shared.inside = none) (opened : code.enter op shared.resource = .ok (resource, here)) :
      Moves code shared { shared with
        resource
        admitted := shared.admitted ++ [call]
        inside := some here }
  | advanced (here there : Local) (resource : Resource) (inside : shared.inside = some here)
      (taken : code.step here shared.resource = (resource, .inl there)) :
      Moves code shared { shared with resource, inside := some there }
  | left (here : Local) (resource : Resource) (outcome : Outcome) (inside : shared.inside = some here)
      (taken : code.step here shared.resource = (resource, .inr outcome)) :
      Moves code shared { shared with
        resource
        inside := none
        outcomes := shared.outcomes ++ [outcome] }

theorem moves_of_step {code : Code Op Resource Local Outcome}
    {before after : Shared Op Resource Local Outcome} {action : Action Op}
    (taken : step code before action = some after) : Moves code before after := by
  cases action with
  | call op =>
    cases taken
    exact .called op
  | attempt call =>
    simp only [step] at taken
    cases known : before.called[call]? with
    | none => simp [known] at taken
    | some op =>
      simp only [known] at taken
      by_cases again : call ∈ before.admitted
      · simp [again] at taken
      · rw [if_neg again] at taken
        cases free : before.inside with
        | some here =>
          simp only [free, Option.isSome_some, ↓reduceIte, Option.some.injEq] at taken
          exact taken ▸ .waited
        | none =>
          simp only [free, Option.isSome_none, Bool.false_eq_true, ↓reduceIte] at taken
          cases opened : code.enter op before.resource with
          | error outcome =>
            simp only [opened, Option.some.injEq] at taken
            rw [← taken, ← free]
            exact .refused call op outcome known again free opened
          | ok entry =>
            obtain ⟨resource, here⟩ := entry
            simp only [opened, Option.some.injEq] at taken
            exact taken ▸ .entered call op resource here known again free opened
  | advance =>
    simp only [step] at taken
    cases inside : before.inside with
    | none => simp [inside] at taken
    | some here =>
      simp only [inside] at taken
      split at taken
      · rename_i resource there moved
        cases taken
        exact .advanced here there resource inside moved
      · rename_i resource outcome moved
        cases taken
        exact .left here resource outcome inside moved

/-- Where the operation stands that is inside, and what it found. -/
def Settled (code : Code Op Resource Local Outcome) (start : Resource)
    (shared : Shared Op Resource Local Outcome) : Prop :=
  match shared.inside with
  | none => shared.operations.length = shared.outcomes.length ∧
      Serial code start shared.finished shared.resource
  | some here => ∃ op before, shared.operations.drop shared.outcomes.length = [op] ∧
      Serial code start shared.finished before ∧ Inside code op before shared.resource here

/-- Every call is let in once at most, and the operations run one after another. -/
structure Serialized (code : Code Op Resource Local Outcome) (start : Resource)
    (shared : Shared Op Resource Local Outcome) : Prop where
  once : shared.admitted.Nodup
  made : ∀ call ∈ shared.admitted, call < shared.called.length
  settled : Settled code start shared

section Order

variable {code : Code Op Resource Local Outcome} {start : Resource}
  {shared after : Shared Op Resource Local Outcome}

private theorem operations_call (made : ∀ call ∈ shared.admitted, call < shared.called.length)
    (op : Op) :
    { shared with called := shared.called ++ [op] : Shared Op Resource Local Outcome }.operations =
      shared.operations := by
  apply List.filterMap_congr
  intro call member
  exact List.getElem?_append_left (made call member)

private theorem operations_entered {call : Nat} {op : Op} (known : shared.called[call]? = some op) :
    (shared.admitted ++ [call]).filterMap (fun call => shared.called[call]?) =
      shared.operations ++ [op] := by
  simp [Shared.operations, known]

private theorem zip_drop {Left Right : Type} {left : List Left} {right : List Right} {last : Left}
    (one : left.drop right.length = [last]) (newest : Right) :
    left.length = right.length + 1 ∧
      left.zip (right ++ [newest]) = left.zip right ++ [(last, newest)] := by
  have short : (left.take right.length).length = right.length := by
    have counted := congrArg List.length one
    rw [List.length_drop, List.length_singleton] at counted
    rw [List.length_take]
    omega
  have split := List.take_append_drop right.length left
  rw [one] at split
  constructor
  · rw [← split, List.length_append, short, List.length_singleton]
  · rw [← split, List.zip_append short]
    have cut : ((left.take right.length) ++ [last]).zip right =
        (left.take right.length).zip right := by
      have whole := @List.zip_append _ _ _ [last] right [] short
      simpa using whole
    rw [cut]
    rfl

theorem serialized_call (valid : Serialized code start shared) (op : Op) :
    Serialized code start { shared with called := shared.called ++ [op] } := by
  have same := operations_call valid.made op
  refine ⟨valid.once, fun call member => ?_, ?_⟩
  · have known := valid.made call member
    simp only [List.length_append]
    omega
  · have settled := valid.settled
    unfold Settled Shared.finished at settled ⊢
    simpa only [same] using settled

private theorem entered_nodup {call : Nat} {op : Op} (valid : Serialized code start shared)
    (known : shared.called[call]? = some op) (fresh : call ∉ shared.admitted) :
    (shared.admitted ++ [call]).Nodup ∧
      ∀ other ∈ shared.admitted ++ [call], other < shared.called.length := by
  constructor
  · apply List.nodup_append.mpr
    refine ⟨valid.once, List.nodup_singleton call, ?_⟩
    rintro other member last single rfl
    exact fresh (List.mem_singleton.mp single ▸ member)
  · intro other member
    rcases List.mem_append.mp member with older | newer
    · exact valid.made other older
    · rw [List.mem_singleton.mp newer]
      exact (List.getElem?_eq_some_iff.mp known).1

theorem serialized_moves (valid : Serialized code start shared)
    (move : Moves code shared after) : Serialized code start after := by
  have settled := valid.settled
  cases move with
  | called op => exact serialized_call valid op
  | waited => exact valid
  | refused call op outcome known fresh free closed =>
    obtain ⟨once, made⟩ := entered_nodup valid known fresh
    refine ⟨once, made, ?_⟩
    simp only [Settled, free, Shared.finished, Shared.operations] at settled ⊢
    obtain ⟨even, serial⟩ := settled
    rw [operations_entered known, Shared.operations, List.zip_append even]
    exact ⟨by simp [even], .snoc serial (.refused closed)⟩
  | entered call op resource here known fresh free opened =>
    obtain ⟨once, made⟩ := entered_nodup valid known fresh
    refine ⟨once, made, op, shared.resource, ?_⟩
    simp only [Settled, free, Shared.finished, Shared.operations] at settled ⊢
    obtain ⟨even, serial⟩ := settled
    rw [operations_entered known, Shared.operations, ← even, List.drop_left]
    have cut := @List.zip_append _ _ _ [op] shared.outcomes [] even
    rw [List.append_nil, List.zip_nil_right, List.append_nil] at cut
    exact ⟨rfl, cut ▸ serial, .entered opened⟩
  | advanced here there resource inside taken =>
    refine ⟨valid.once, valid.made, ?_⟩
    simp only [Settled, inside] at settled
    obtain ⟨op, before, last, serial, course⟩ := settled
    exact ⟨op, before, last, serial, .moved course taken⟩
  | left here resource outcome inside taken =>
    refine ⟨valid.once, valid.made, ?_⟩
    simp only [Settled, inside] at settled
    obtain ⟨op, before, last, serial, course⟩ := settled
    obtain ⟨longer, extended⟩ := zip_drop last outcome
    constructor
    · rw [List.length_append, List.length_singleton]
      exact longer
    · change Serial code start (shared.operations.zip (shared.outcomes ++ [outcome])) resource
      rw [extended]
      exact .snoc serial (.left course taken)

/-- On any schedule the operations run one after another. -/
theorem serialized_of_reaches {allowed : Shared Op Resource Local Outcome → Action Op → Prop}
    (reached : Reaches (step code) allowed { resource := start } shared) :
    Serialized code start shared := by
  apply reached.invariant
  · exact ⟨List.nodup_nil, by simp, rfl, .nil⟩
  · exact fun _ _ _ valid _ taken => serialized_moves valid (moves_of_step taken)

private theorem map_fst_zip_sublist {Left Right : Type} (left : List Left) (right : List Right) :
    ((left.zip right).map Prod.fst).Sublist left := by
  induction left generalizing right with
  | nil => exact List.Sublist.refl _
  | cons head rest ih =>
    cases right with
    | nil => exact List.nil_sublist _
    | cons other more => exact (ih more).cons_cons head

private theorem filterMap_range {Value : Type} (values : List Value) :
    (List.range values.length).filterMap (fun place => values[place]?) = values := by
  induction values with
  | nil => rfl
  | cons value rest ih =>
    rw [List.length_cons, List.range_succ_eq_map, List.filterMap_cons, List.filterMap_map]
    simpa using ih

theorem Serialized.finished_subperm (valid : Serialized code start shared) :
    (shared.finished.map Prod.fst).Subperm shared.called := by
  have within : shared.admitted.Subperm (List.range shared.called.length) :=
    valid.once.subperm fun call member => List.mem_range.mpr (valid.made call member)
  obtain ⟨calls, permuted, kept⟩ := within
  have operations : shared.operations.Subperm shared.called := by
    refine ⟨calls.filterMap fun call => shared.called[call]?, permuted.filterMap _, ?_⟩
    have sublist := kept.filterMap fun call => shared.called[call]?
    rwa [filterMap_range] at sublist
  exact (map_fst_zip_sublist _ _).subperm.trans operations

end Order

end Exclusive
