import OddJob.Helpers.Expressions

/-! `ExpressionHelpers.CombineBinaryExpression`: predicates put together by giving them one
parameter. -/

namespace OddJob.Helpers

section Combine

variable {Parameter Member Other Scope Object : Type} [DecidableEq Parameter]

/-- `Expression<Func<T, bool>>`. Nothing in it is free but its own parameter. -/
structure Lambda (Parameter Member Other Scope Object : Type) [DecidableEq Parameter] where
  parameter : Parameter
  body : Expr Parameter (NodeKind Member Other Object) Scope
  closed : ∀ name ∈ body.free, name = parameter

/-- `SwapVisitor`: it comes upon a parameter where it is used and where it is bound. -/
def swapVisitor (old new : Parameter)
    (expr : Expr Parameter (NodeKind Member Other Object) Scope) :
    Expr Parameter (NodeKind Member Other Object) Scope :=
  expr.rename fun name => if name = old then new else name

theorem mem_free_swapVisitor {old new name : Parameter}
    {expr : Expr Parameter (NodeKind Member Other Object) Scope}
    (closed : ∀ name ∈ expr.free, name = old) (member : name ∈ (swapVisitor old new expr).free) :
    name = new := by
  obtain ⟨inner, used, rfl⟩ := Expr.mem_free_rename member
  exact if_pos (closed inner used)

def combineBinaryExpression (expr : Option (Lambda Parameter Member Other Scope Object))
    (toAdd : Lambda Parameter Member Other Scope Object) (trueAnd : Bool) :
    Lambda Parameter Member Other Scope Object :=
  match expr with
  | none => toAdd
  | some expr => {
      parameter := toAdd.parameter
      body := .node (if trueAnd then .andAlso else .orElse)
        [swapVisitor expr.parameter toAdd.parameter expr.body, toAdd.body]
      closed := by
        intro name member
        rw [Expr.free, Expr.freeAll_eq] at member
        obtain ⟨side, listed, inside⟩ := List.mem_flatMap.mp member
        rcases List.mem_pair.mp listed with rfl | rfl
        · exact mem_free_swapVisitor expr.closed inside
        · exact toAdd.closed name inside }

/-- The predicates of a list, one after another, from a null start. -/
def combineAll (trueAnd : Bool) (lambdas : List (Lambda Parameter Member Other Scope Object)) :
    Option (Lambda Parameter Member Other Scope Object) :=
  lambdas.foldl (fun expr toAdd => some (combineBinaryExpression expr toAdd trueAnd)) none

namespace Lambda

/-- All the parameters that the lambda binds. -/
def bound (lambda : Lambda Parameter Member Other Scope Object) : List Parameter :=
  lambda.parameter :: lambda.body.bound

/-- The compiled predicate on one row. -/
def call (platform : Platform Member Other Scope Object)
    (lambda : Lambda Parameter Member Other Scope Object) (row : Value Object) :
    Except ClrException Bool :=
  asBool (lambda.body.eval platform.meaning fun name =>
    if name = lambda.parameter then .ok row else .error .invalidOperation)

variable {expr toAdd : Lambda Parameter Member Other Scope Object} {trueAnd : Bool}

theorem mem_bound_combine {name : Parameter}
    (member : name ∈ (combineBinaryExpression (some expr) toAdd trueAnd).bound) :
    name ∈ expr.bound ∨ name ∈ toAdd.bound := by
  rcases List.mem_cons.mp member with rfl | inside
  · exact .inr List.mem_cons_self
  · rw [combineBinaryExpression, Expr.bound, Expr.boundAll_eq] at inside
    obtain ⟨side, listed, inside⟩ := List.mem_flatMap.mp inside
    rcases List.mem_pair.mp listed with rfl | rfl
    · rw [swapVisitor, Expr.bound_rename] at inside
      obtain ⟨old, used, rfl⟩ := List.mem_map.mp inside
      split
      · exact .inr List.mem_cons_self
      · exact .inl (List.mem_cons_of_mem _ used)
    · exact .inr (List.mem_cons_of_mem _ inside)

private theorem call_swapVisitor (platform : Platform Member Other Scope Object)
    {new : Parameter} (fresh : new ∉ expr.bound) (row : Value Object) :
    asBool ((swapVisitor expr.parameter new expr.body).eval platform.meaning fun name =>
      if name = new then .ok row else .error .invalidOperation) = expr.call platform row := by
  have unnamed : new ∉ expr.body.names := by
    intro member
    rcases List.mem_append.mp member with unbound | bound
    · exact fresh (expr.closed new unbound ▸ List.mem_cons_self)
    · exact fresh (List.mem_cons_of_mem _ bound)
  rw [call, swapVisitor]
  congr 1
  apply Expr.eval_rename
  · intro one here other there same
    have apart (name : Parameter) (used : name ∈ expr.body.names) : name ≠ new :=
      fun same => unnamed (same ▸ used)
    have oneApart := apart one here
    have otherApart := apart other there
    simp only at same
    split at same <;> split at same
    · rename_i first second
      rw [first, second]
    · exact absurd same.symm otherApart
    · exact absurd same oneApart
    · exact same
  · intro name used
    simp [expr.closed name used]

/-- One step: the new predicate is looked at where the old ones have not decided. -/
theorem call_combine (platform : Platform Member Other Scope Object)
    (distinct : expr.bound.Disjoint toAdd.bound) (row : Value Object) :
    (combineBinaryExpression (some expr) toAdd trueAnd).call platform row =
      shortCircuit trueAnd (expr.call platform row) (toAdd.call platform row) := by
  have fresh : toAdd.parameter ∉ expr.bound := fun member => distinct member List.mem_cons_self
  rw [call, ← call_swapVisitor platform fresh row]
  cases trueAnd <;> simp [combineBinaryExpression, Platform.meaning, Platform.node, call]

end Lambda

variable {trueAnd : Bool}

private theorem foldl_combine (platform : Platform Member Other Scope Object)
    {expr : Lambda Parameter Member Other Scope Object}
    {rest : List (Lambda Parameter Member Other Scope Object)}
    (distinct : (expr :: rest).Pairwise fun earlier later => earlier.bound.Disjoint later.bound) :
    ∃ combined, rest.foldl (fun expr toAdd =>
        some (combineBinaryExpression expr toAdd trueAnd)) (some expr) = some combined ∧
      combined.parameter = ((expr :: rest).getLast (List.cons_ne_nil _ _)).parameter ∧
      ∀ row, combined.call platform row =
        allInOrder trueAnd ((expr :: rest).map (Lambda.call platform · row)) := by
  induction rest generalizing expr with
  | nil => exact ⟨expr, rfl, rfl, fun row => (shortCircuit_unit _).symm⟩
  | cons toAdd rest ih =>
    obtain ⟨apart, later⟩ := List.pairwise_cons.mp distinct
    obtain ⟨next, last⟩ := List.pairwise_cons.mp later
    have step : (combineBinaryExpression (some expr) toAdd trueAnd :: rest).Pairwise
        fun earlier later => earlier.bound.Disjoint later.bound := by
      refine List.pairwise_cons.mpr ⟨fun other listed name here there => ?_, last⟩
      rcases Lambda.mem_bound_combine here with old | new
      · exact apart other (List.mem_cons_of_mem _ listed) old there
      · exact next other listed new there
    obtain ⟨combined, folded, parameter, value⟩ := ih step
    refine ⟨combined, folded, ?_, ?_⟩
    · rw [parameter]
      cases rest <;> rfl
    · intro row
      rw [value row]
      simp only [allInOrder, List.map_cons, List.foldr_cons]
      rw [Lambda.call_combine platform (apart toAdd List.mem_cons_self), shortCircuit_assoc]

/-- The fold of predicates that bind different parameters is the predicate that tries them
in order: their conjunction or their disjunction where none of them throws. It takes the
parameter of the last one, and those of the others do not occur in it unbound. -/
theorem combineAll_eq (platform : Platform Member Other Scope Object)
    {lambdas : List (Lambda Parameter Member Other Scope Object)} (nonempty : lambdas ≠ [])
    (distinct : lambdas.Pairwise fun earlier later => earlier.bound.Disjoint later.bound) :
    ∃ combined, combineAll trueAnd lambdas = some combined ∧
      combined.parameter = (lambdas.getLast nonempty).parameter ∧
      (∀ earlier ∈ lambdas.dropLast, earlier.parameter ∉ combined.body.free) ∧
      (∀ row, combined.call platform row =
        allInOrder trueAnd (lambdas.map (Lambda.call platform · row))) ∧
      ∀ row (truths : List Bool), lambdas.map (Lambda.call platform · row) = truths.map .ok →
        combined.call platform row =
          .ok (if trueAnd then truths.all id else truths.any id) := by
  cases lambdas with
  | nil => exact absurd rfl nonempty
  | cons first rest =>
    obtain ⟨combined, folded, parameter, value⟩ := @foldl_combine _ _ _ _ _ _ trueAnd platform _ _
      distinct
    refine ⟨combined, folded, parameter, ?_, value, ?_⟩
    · intro earlier listed used
      have split := List.dropLast_append_getLast nonempty
      rw [← split] at distinct
      have apart := (List.pairwise_append.mp distinct).2.2 earlier listed _ List.mem_cons_self
      have same : earlier.parameter = ((first :: rest).getLast nonempty).parameter :=
        (combined.closed _ used).trans parameter
      exact apart List.mem_cons_self (same ▸ List.mem_cons_self)
    · intro row truths same
      rw [value row, same, allInOrder_ok]

end Combine

/-- `x => x.Name.Contains("a")` -/
def nameContains (parameter : Nat) (part : String) : Lambda Nat Unit Empty Unit Unit where
  parameter
  body := .node (.call .contains)
    [.node (.member ()) [.parameter parameter], .node (.constant (.text part)) []]
  closed := by simp [Expr.free, Expr.freeAll]

/-- `x => x.Any(y => x.Contains(y))` -/
def containsOwn (parameter inner : Nat) : Lambda Nat Unit Empty Unit Unit where
  parameter
  body := .scope () [inner] (.node (.call .contains) [.parameter parameter, .parameter inner])
  closed := by simp [Expr.free, Expr.freeAll]

theorem combineAll_eq_of_two : ∃ combined,
    combineAll true [nameContains 0 "b", containsOwn 1 2] = some combined ∧
      combined.call namePlatform (.text "ab") = .ok true := by
  have distinct : [nameContains 0 "b", containsOwn 1 2].Pairwise
      fun earlier later => earlier.bound.Disjoint later.bound := by
    simp [nameContains, containsOwn, Lambda.bound, Expr.bound, Expr.boundAll, List.Disjoint]
  obtain ⟨combined, folded, -, -, -, truth⟩ := @combineAll_eq _ _ _ _ _ _ true namePlatform _
    (List.cons_ne_nil _ _) distinct
  exact ⟨combined, folded, truth (.text "ab") [true, true] (by rfl)⟩

end OddJob.Helpers
