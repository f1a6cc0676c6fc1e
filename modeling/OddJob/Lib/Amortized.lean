import OddJob.Lib.Transition
import Mathlib.Algebra.BigOperators.Group.List.Basic
import Mathlib.Algebra.GroupWithZero.Nat

/-! Amortized costs of runs. Each step is paid for by what it is credited with and by the
potential that it gives up, so a whole run costs no more than it started with and was
credited with. -/

namespace Transition

variable {State Action Event : Type} {step : State → Action → Option State}
  {event : State → Action → State → Option Event} {allowed : State → Action → Prop}
  {start : State}

theorem Reaches.unobserved {earlier : List Event} {record : State × List Event}
    (reached : Reaches (observed step event) (fun record action => allowed record.1 action)
      (start, earlier) record) : Reaches step allowed start record.1 := by
  induction reached with
  | refl => exact .refl
  | next _ permitted taken ih => exact .next ih permitted (observed_eq_some_iff.mp taken).1

section Potential

variable {potential : State → Nat} {cost credit : Event → Nat}

/-- The step is paid for: one that nobody observes must not raise the potential. -/
def Pays (potential : State → Nat) (cost credit : Event → Nat) (seen : Option Event)
    (before after : State) : Prop :=
  seen.elim 0 cost + potential after ≤ potential before + seen.elim 0 credit

/-- The amortized rule: steps that are paid for one by one are paid for together. -/
theorem Reaches.amortized {final : State} {events : List Event}
    (reached : Reaches (observed step event) (fun record action => allowed record.1 action)
      (start, []) (final, events))
    (pays : ∀ before action after, Reaches step allowed start before → allowed before action →
      step before action = some after →
      Pays potential cost credit (event before action after) before after) :
    (events.map cost).sum + potential final ≤ potential start + (events.map credit).sum := by
  suffices paid : ∀ record, Reaches (observed step event)
      (fun record action => allowed record.1 action) (start, []) record →
      (record.2.map cost).sum + potential record.1 ≤
        potential start + (record.2.map credit).sum from paid _ reached
  intro record run
  induction run with
  | refl => simp
  | @next before action after earlier permitted taken ih =>
    obtain ⟨stepped, seen⟩ := observed_eq_some_iff.mp taken
    have paid := pays _ _ _ earlier.unobserved permitted stepped
    unfold Pays at paid
    rw [seen]
    cases observed : event before.1 action after.1 with
    | none =>
      rw [observed] at paid
      simp only [Option.elim_none, Option.toList_none, List.append_nil] at paid ⊢
      omega
    | some one =>
      rw [observed] at paid
      simp only [Option.elim_some, Option.toList_some, List.map_append, List.sum_append,
        List.map_cons, List.map_nil, List.sum_cons, List.sum_nil] at paid ⊢
      omega

end Potential

/-- Where each state that is not settled has a step to a smaller one, some run settles. -/
theorem exists_settled {settled : State → Prop} (valid : State → Prop) (potential : State → Nat)
    (progress : ∀ state, valid state → ¬ settled state → ∃ action after,
      allowed state action ∧ step state action = some after ∧ valid after ∧
      potential after < potential state) (initial : valid start) :
    ∃ final, Reaches step allowed start final ∧ settled final := by
  induction size : potential start using Nat.strongRecOn generalizing start with
  | ind bound ih =>
    by_cases done : settled start
    · exact ⟨start, .refl, done⟩
    · obtain ⟨action, after, permitted, taken, kept, smaller⟩ := progress start initial done
      obtain ⟨final, later, ends⟩ := ih _ (size ▸ smaller) kept rfl
      exact ⟨final, .trans (.next .refl permitted taken) later, ends⟩

end Transition

namespace List

variable {Item : Type}

theorem sum_map_set {pool : List Item} {index : Nat} {old : Item} (weight : Item → Nat)
    (found : pool[index]? = some old) (new : Item) :
    ((pool.set index new).map weight).sum + weight old = (pool.map weight).sum + weight new := by
  induction pool generalizing index with
  | nil => simp at found
  | cons head rest ih =>
    cases index with
    | zero =>
      obtain rfl : head = old := by simpa using found
      simp only [set_cons_zero, map_cons, sum_cons]
      omega
    | succ index =>
      have later := @ih index (by simpa using found)
      simp only [set_cons_succ, map_cons, sum_cons]
      omega

theorem countP_add_le {items : List Item} {one two left right : Item → Bool}
    (each : ∀ item ∈ items, (one item).toNat + (two item).toNat ≤
      (left item).toNat + (right item).toNat) :
    items.countP one + items.countP two ≤ items.countP left + items.countP right := by
  induction items with
  | nil => simp
  | cons item rest ih =>
    have first := each item mem_cons_self
    have later := ih fun other member => each other (mem_cons_of_mem _ member)
    have counted (holds : Item → Bool) :
        (item :: rest).countP holds = rest.countP holds + (holds item).toNat := by
      rw [countP_cons]
      cases holds item <;> rfl
    rw [counted, counted, counted, counted]
    omega

theorem sum_map_eraseIdx {queue : List Item} {index : Nat} {item : Item} (weight : Item → Nat)
    (found : queue[index]? = some item) :
    ((queue.eraseIdx index).map weight).sum + weight item = (queue.map weight).sum := by
  obtain ⟨inside, same⟩ := getElem?_eq_some_iff.mp found
  have split := (getElem_cons_eraseIdx_perm inside).map weight
  rw [← split.sum_eq, map_cons, sum_cons, same, Nat.add_comm]

end List
