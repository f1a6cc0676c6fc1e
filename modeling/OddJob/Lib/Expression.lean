import Mathlib.Data.List.Nodup
import Mathlib.Data.Set.Function
import Mathlib.Logic.Function.Basic

/-! Expression trees in which some nodes bind parameters, their outcomes, and what becomes
of an outcome when the parameters are renamed. -/

inductive Expr (Parameter Kind Scope : Type) where
  | parameter (name : Parameter)
  | node (kind : Kind) (children : List (Expr Parameter Kind Scope))
  | scope (kind : Scope) (parameters : List Parameter) (body : Expr Parameter Kind Scope)

/-- What the nodes do with the outcomes of their children. A node that binds parameters
has its body as a function of what they stand for, first to last. -/
structure Meaning (Kind Scope Outcome : Type) where
  node : Kind → List Outcome → Outcome
  scope : Scope → Nat → ((Nat → Outcome) → Outcome) → Outcome

namespace Expr

variable {Parameter Kind Scope Outcome : Type}

@[elab_as_elim, induction_eliminator]
theorem induct {motive : Expr Parameter Kind Scope → Prop}
    (parameter : ∀ name, motive (.parameter name))
    (node : ∀ kind children, (∀ child ∈ children, motive child) → motive (.node kind children))
    (scope : ∀ kind parameters body, motive body → motive (.scope kind parameters body))
    (expr : Expr Parameter Kind Scope) : motive expr := by
  refine @Expr.rec _ _ _ motive (fun children => ∀ child ∈ children, motive child)
    parameter node scope ?_ ?_ expr
  · exact fun child member => absurd member List.not_mem_nil
  · intro first rest holds later child member
    rcases List.mem_cons.mp member with rfl | older
    · exact holds
    · exact later child older

section Rename

variable {Renamed : Type}

mutual

/-- Put another parameter for each, also where it is bound. -/
def rename (name : Parameter → Renamed) : Expr Parameter Kind Scope → Expr Renamed Kind Scope
  | .parameter old => .parameter (name old)
  | .node kind children => .node kind (renameAll name children)
  | .scope kind parameters body => .scope kind (parameters.map name) (body.rename name)

def renameAll (name : Parameter → Renamed) :
    List (Expr Parameter Kind Scope) → List (Expr Renamed Kind Scope)
  | [] => []
  | first :: rest => first.rename name :: renameAll name rest

end

theorem renameAll_eq (name : Parameter → Renamed) (children : List (Expr Parameter Kind Scope)) :
    renameAll name children = children.map (rename name) := by
  induction children with
  | nil => rfl
  | cons first rest ih => rw [renameAll, ih, List.map_cons]

end Rename

mutual

/-- The parameters that are bound somewhere. -/
def bound : Expr Parameter Kind Scope → List Parameter
  | .parameter _ => []
  | .node _ children => boundAll children
  | .scope _ parameters body => parameters ++ body.bound

def boundAll : List (Expr Parameter Kind Scope) → List Parameter
  | [] => []
  | first :: rest => first.bound ++ boundAll rest

end

theorem boundAll_eq (children : List (Expr Parameter Kind Scope)) :
    boundAll children = children.flatMap bound := by
  induction children with
  | nil => rfl
  | cons first rest ih => rw [boundAll, ih, List.flatMap_cons]

variable [DecidableEq Parameter]

mutual

/-- The parameters that occur unbound. -/
def free : Expr Parameter Kind Scope → List Parameter
  | .parameter name => [name]
  | .node _ children => freeAll children
  | .scope _ parameters body => body.free.filter (· ∉ parameters)

def freeAll : List (Expr Parameter Kind Scope) → List Parameter
  | [] => []
  | first :: rest => first.free ++ freeAll rest

end

theorem freeAll_eq (children : List (Expr Parameter Kind Scope)) :
    freeAll children = children.flatMap free := by
  induction children with
  | nil => rfl
  | cons first rest ih => rw [freeAll, ih, List.flatMap_cons]

/-- What the parameters stand for inside a node that binds some of them. -/
def bind : List Parameter → (Nat → Outcome) → (Parameter → Outcome) → Parameter → Outcome
  | [], _, env => env
  | name :: parameters, outcomes, env =>
    Function.update (bind parameters (fun place => outcomes (place + 1)) env) name (outcomes 0)

mutual

def eval (meaning : Meaning Kind Scope Outcome) (env : Parameter → Outcome) :
    Expr Parameter Kind Scope → Outcome
  | .parameter name => env name
  | .node kind children => meaning.node kind (evalAll meaning env children)
  | .scope kind parameters body =>
    meaning.scope kind parameters.length fun outcomes =>
      body.eval meaning (bind parameters outcomes env)

def evalAll (meaning : Meaning Kind Scope Outcome) (env : Parameter → Outcome) :
    List (Expr Parameter Kind Scope) → List Outcome
  | [] => []
  | first :: rest => first.eval meaning env :: evalAll meaning env rest

end

theorem evalAll_eq (meaning : Meaning Kind Scope Outcome) (env : Parameter → Outcome)
    (children : List (Expr Parameter Kind Scope)) :
    evalAll meaning env children = children.map (eval meaning env) := by
  induction children with
  | nil => rfl
  | cons first rest ih => rw [evalAll, ih, List.map_cons]

section Equations

variable (meaning : Meaning Kind Scope Outcome) (env : Parameter → Outcome)

@[simp] theorem eval_parameter (name : Parameter) :
    eval meaning env (.parameter name : Expr Parameter Kind Scope) = env name := by
  rw [eval]

@[simp] theorem eval_node (kind : Kind) (children : List (Expr Parameter Kind Scope)) :
    eval meaning env (.node kind children) =
      meaning.node kind (children.map (eval meaning env)) := by
  rw [eval, evalAll_eq]

theorem eval_scope (kind : Scope) (parameters : List Parameter)
    (body : Expr Parameter Kind Scope) :
    eval meaning env (.scope kind parameters body) =
      meaning.scope kind parameters.length
        fun outcomes => eval meaning (bind parameters outcomes env) body := by
  rw [eval]

end Equations

section Rename

variable {Renamed : Type} [DecidableEq Renamed] {name : Parameter → Renamed}

/-- The names a tree has anywhere. -/
def names (expr : Expr Parameter Kind Scope) : List Parameter :=
  expr.free ++ expr.bound

theorem mem_free_rename {expr : Expr Parameter Kind Scope} {renamed : Renamed}
    (member : renamed ∈ (expr.rename name).free) : ∃ old ∈ expr.free, name old = renamed := by
  induction expr with
  | parameter old =>
    rw [rename, free, List.mem_singleton] at member
    exact ⟨old, List.mem_singleton.mpr rfl, member.symm⟩
  | node kind children each =>
    rw [rename, free, freeAll_eq, renameAll_eq, List.flatMap_map, List.mem_flatMap] at member
    obtain ⟨child, listed, inside⟩ := member
    obtain ⟨old, inner, same⟩ := each child listed inside
    refine ⟨old, ?_, same⟩
    rw [free, freeAll_eq]
    exact List.mem_flatMap.mpr ⟨child, listed, inner⟩
  | scope kind parameters body ih =>
    rw [rename, free, List.mem_filter, decide_eq_true_eq] at member
    obtain ⟨inside, unbound⟩ := member
    obtain ⟨old, inner, same⟩ := ih inside
    refine ⟨old, List.mem_filter.mpr ⟨inner, decide_eq_true ?_⟩, same⟩
    exact fun listed => unbound (List.mem_map.mpr ⟨old, listed, same⟩)

omit [DecidableEq Parameter] [DecidableEq Renamed] in
theorem bound_rename (expr : Expr Parameter Kind Scope) :
    (expr.rename name).bound = expr.bound.map name := by
  induction expr with
  | parameter old => rfl
  | node kind children each =>
    rw [rename, bound, boundAll_eq, renameAll_eq, List.flatMap_map, bound, boundAll_eq,
      List.map_flatMap]
    exact List.flatMap_congr each
  | scope kind parameters body ih => rw [rename, bound, ih, bound, List.map_append]

private theorem bind_rename {parameters : List Parameter} {outcomes : Nat → Outcome}
    {env : Parameter → Outcome} {env' : Renamed → Outcome} {old : Parameter}
    (apart : ∀ other ∈ parameters, name other = name old → other = old)
    (same : old ∉ parameters → env' (name old) = env old) :
    bind (parameters.map name) outcomes env' (name old) = bind parameters outcomes env old := by
  induction parameters generalizing outcomes with
  | nil => exact same List.not_mem_nil
  | cons first rest ih =>
    rw [List.map_cons, bind, bind]
    by_cases hit : old = first
    · subst hit
      rw [Function.update_self, Function.update_self]
    · have missed : name old ≠ name first := fun clash =>
        hit (apart first List.mem_cons_self clash.symm).symm
      rw [Function.update_of_ne missed, Function.update_of_ne hit]
      apply ih
      · exact fun other member => apart other (List.mem_cons_of_mem _ member)
      · exact fun absent => same fun member =>
          (List.mem_cons.mp member).elim hit absent

/-- Where no two names of a tree become one, the renamed tree has the outcome of the old one. -/
theorem eval_rename (meaning : Meaning Kind Scope Outcome) {expr : Expr Parameter Kind Scope}
    {env : Parameter → Outcome} {env' : Renamed → Outcome}
    (apart : Set.InjOn name {old | old ∈ expr.names})
    (same : ∀ old ∈ expr.free, env' (name old) = env old) :
    eval meaning env' (expr.rename name) = eval meaning env expr := by
  induction expr generalizing env env' with
  | parameter old =>
    rw [rename, eval_parameter, eval_parameter]
    exact same old List.mem_cons_self
  | node kind children each =>
    rw [rename, renameAll_eq, eval_node, eval_node, List.map_map]
    congr 1
    apply List.map_congr_left
    intro child listed
    have inner {old : Parameter} (member : old ∈ child.free) : old ∈ (node kind children).free := by
      rw [free, freeAll_eq]
      exact List.mem_flatMap.mpr ⟨child, listed, member⟩
    have outer {old : Parameter} (member : old ∈ child.bound) :
        old ∈ (node kind children).bound := by
      rw [bound, boundAll_eq]
      exact List.mem_flatMap.mpr ⟨child, listed, member⟩
    apply each child listed
    · apply apart.mono
      intro old member
      rcases List.mem_append.mp member with unbound | bound
      · exact List.mem_append_left _ (inner unbound)
      · exact List.mem_append_right _ (outer bound)
    · exact fun old member => same old (inner member)
  | scope kind parameters body ih =>
    -- a name that is free in the body is bound here or free outside
    have known {old : Parameter} (member : old ∈ body.free) :
        old ∈ (scope kind parameters body).names := by
      by_cases listed : old ∈ parameters
      · exact List.mem_append_right _ (List.mem_append_left _ listed)
      · exact List.mem_append_left _ (List.mem_filter.mpr ⟨member, decide_eq_true listed⟩)
    rw [rename, eval_scope, eval_scope, List.length_map]
    congr 1
    funext outcomes
    apply ih
    · apply apart.mono
      intro old member
      rcases List.mem_append.mp member with unbound | inside
      · exact known unbound
      · exact List.mem_append_right _ (List.mem_append_right _ inside)
    · intro old member
      apply bind_rename
      · intro other listed clash
        exact apart (List.mem_append_right _ (List.mem_append_left _ listed)) (known member) clash
      · exact fun absent =>
          same old (List.mem_filter.mpr ⟨member, decide_eq_true absent⟩)

end Rename

omit [DecidableEq Parameter] in
theorem rename_id (expr : Expr Parameter Kind Scope) : expr.rename id = expr := by
  induction expr with
  | parameter name => rfl
  | node kind children each =>
    rw [rename, renameAll_eq, List.map_congr_left each, List.map_id']
  | scope kind parameters body ih => rw [rename, ih, List.map_id]

theorem eval_congr (meaning : Meaning Kind Scope Outcome) {expr : Expr Parameter Kind Scope}
    {env env' : Parameter → Outcome} (same : ∀ name ∈ expr.free, env name = env' name) :
    eval meaning env expr = eval meaning env' expr := by
  have renamed := @eval_rename _ _ _ _ _ _ _ id meaning expr env' env
    (Set.injOn_id _) same
  rwa [rename_id] at renamed

section Rewriting

variable {Renamed : Type} [DecidableEq Renamed] {name : Parameter → Renamed} {kind : Kind}
  {children : List (Expr Parameter Kind Scope)} {child : Expr Parameter Kind Scope}

theorem free_subset_node (listed : child ∈ children) :
    child.free ⊆ (node kind children : Expr Parameter Kind Scope).free := by
  intro old member
  rw [free, freeAll_eq]
  exact List.mem_flatMap.mpr ⟨child, listed, member⟩

omit [DecidableEq Parameter] in
theorem bound_subset_node (listed : child ∈ children) :
    child.bound ⊆ (node kind children : Expr Parameter Kind Scope).bound := by
  intro old member
  rw [bound, boundAll_eq]
  exact List.mem_flatMap.mpr ⟨child, listed, member⟩

theorem names_subset_node (listed : child ∈ children) :
    child.names ⊆ (node kind children : Expr Parameter Kind Scope).names :=
  List.append_subset.mpr ⟨List.subset_append_of_subset_left _ (free_subset_node listed),
    List.subset_append_of_subset_right _ (bound_subset_node listed)⟩

/-- A name that is free in the body is bound by the scope or free outside. -/
theorem names_subset_scope {kind : Scope} {parameters : List Parameter}
    {body : Expr Parameter Kind Scope} : body.names ⊆ (scope kind parameters body).names := by
  intro old member
  rcases List.mem_append.mp member with unbound | inside
  · by_cases listed : old ∈ parameters
    · exact List.mem_append_right _ (List.mem_append_left _ listed)
    · exact List.mem_append_left _ (List.mem_filter.mpr ⟨unbound, decide_eq_true listed⟩)
  · exact List.mem_append_right _ (List.mem_append_right _ inside)

theorem mem_free_rename_of_mem {expr : Expr Parameter Kind Scope} {old : Parameter}
    (apart : Set.InjOn name {old | old ∈ expr.names}) (member : old ∈ expr.free) :
    name old ∈ (expr.rename name).free := by
  induction expr with
  | parameter own =>
    rw [free, List.mem_singleton] at member
    rw [rename, free, member]
    exact List.mem_singleton_self _
  | node kind children each =>
    rw [free, freeAll_eq] at member
    obtain ⟨child, listed, inside⟩ := List.mem_flatMap.mp member
    rw [rename, renameAll_eq]
    exact free_subset_node (List.mem_map_of_mem listed)
      (each child listed (apart.mono (names_subset_node listed)) inside)
  | scope kind parameters body ih =>
    rw [free, List.mem_filter, decide_eq_true_eq] at member
    obtain ⟨inside, unbound⟩ := member
    rw [rename, free, List.mem_filter, decide_eq_true_eq]
    refine ⟨ih (apart.mono names_subset_scope) inside, fun listed => unbound ?_⟩
    obtain ⟨other, bound, same⟩ := List.mem_map.mp listed
    have own : old ∈ (scope kind parameters body).names :=
      names_subset_scope (List.mem_append_left body.bound inside)
    exact apart (List.mem_append_right _ (List.mem_append_left _ bound)) own same ▸ bound

theorem free_rename_eq_nil {expr : Expr Parameter Kind Scope}
    (apart : Set.InjOn name {old | old ∈ expr.names}) :
    (expr.rename name).free = [] ↔ expr.free = [] := by
  rw [List.eq_nil_iff_forall_not_mem, List.eq_nil_iff_forall_not_mem]
  constructor
  · exact fun none old member => none _ (mem_free_rename_of_mem apart member)
  · intro none renamed member
    obtain ⟨old, inside, _⟩ := mem_free_rename member
    exact none old inside

end Rewriting

/-- A rewriting that can fail, and that sees which parameters are the same but not what they
are called. -/
structure Uniform {Error : Type}
    (rewrite : Expr Parameter Kind Scope → Except Error (Expr Parameter Kind Scope)) : Prop where
  free : ∀ expr rewritten, rewrite expr = .ok rewritten → rewritten.free ⊆ expr.free
  bound : ∀ expr rewritten, rewrite expr = .ok rewritten → rewritten.bound ⊆ expr.bound
  renames : ∀ (expr : Expr Parameter Kind Scope) (name : Parameter → Parameter),
    Set.InjOn name {old | old ∈ expr.names} →
      rewrite (expr.rename name) = (rewrite expr).map (rename name)

namespace Uniform

variable {Error : Type}
  {rewrite next : Expr Parameter Kind Scope → Except Error (Expr Parameter Kind Scope)}

theorem ok : Uniform (.ok : Expr Parameter Kind Scope → Except Error (Expr Parameter Kind Scope))
    where
  free _ _ same := by cases same; exact List.Subset.refl _
  bound _ _ same := by cases same; exact List.Subset.refl _
  renames _ _ _ := rfl

omit [DecidableEq Parameter] in
theorem bind_eq_ok_iff {expr rewritten : Expr Parameter Kind Scope} :
    rewrite expr >>= next = .ok rewritten ↔
      ∃ between, rewrite expr = .ok between ∧ next between = .ok rewritten := by
  cases rewrite expr with
  | error exception => simp [Bind.bind, Except.bind]
  | ok between => simp [Bind.bind, Except.bind]

theorem bind (first : Uniform rewrite) (second : Uniform next) :
    Uniform fun expr => rewrite expr >>= next where
  free expr rewritten done := by
    obtain ⟨between, early, late⟩ := bind_eq_ok_iff.mp done
    exact List.Subset.trans (second.free _ _ late) (first.free _ _ early)
  bound expr rewritten done := by
    obtain ⟨between, early, late⟩ := bind_eq_ok_iff.mp done
    exact List.Subset.trans (second.bound _ _ late) (first.bound _ _ early)
  renames expr name apart := by
    rw [first.renames expr name apart]
    cases early : rewrite expr with
    | error exception => rfl
    | ok between =>
      refine second.renames between name (apart.mono fun old member => ?_)
      rcases List.mem_append.mp member with unbound | inside
      · exact List.mem_append_left _ (first.free _ _ early unbound)
      · exact List.mem_append_right _ (first.bound _ _ early inside)

end Uniform

end Expr
