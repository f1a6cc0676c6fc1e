import OddJob.Helpers.Combine
import OddJob.Helpers.LikeAny
import Mathlib.Data.List.Forall2

/-! `ExpressionReplacingLinq2DbConnection.ProcessExpression`: what becomes of a predicate on
its way to the database, and of a predicate that was put together from others. -/

namespace OddJob.Helpers

variable {Parameter Member Other Scope Object : Type} [DecidableEq Parameter]

/-- An `ExpressionVisitor`, as far as its `Visit` goes. -/
abbrev ExpressionVisitor (Parameter Member Other Scope Object : Type) : Type :=
  Expr Parameter (NodeKind Member Other Object) Scope →
    Except ClrException (Expr Parameter (NodeKind Member Other Object) Scope)

section Process

variable (platform : Platform Member Other Scope Object)

def defaultVisitors : List (ExpressionVisitor Parameter Member Other Scope Object) :=
  [visit platform]

/-- The custom visitors come first, in their order. -/
def processExpression (customVisitors : List (ExpressionVisitor Parameter Member Other Scope Object))
    (expression : Expr Parameter (NodeKind Member Other Object) Scope) :
    Except ClrException (Expr Parameter (NodeKind Member Other Object) Scope) := do
  let newExpr ← customVisitors.foldlM (fun newExpr v => v newExpr) expression
  (defaultVisitors platform).foldlM (fun newExpr v => v newExpr) newExpr

end Process

section Rename

variable {platform : Platform Member Other Scope Object} {name : Parameter → Parameter}
  {method : LikeMethod} {arg set : Expr Parameter (NodeKind Member Other Object) Scope}

omit [DecidableEq Parameter] in
private theorem isMember_rename (expr : Expr Parameter (NodeKind Member Other Object) Scope) :
    isMember (expr.rename name) = isMember expr := by
  cases expr with
  | parameter | scope => rfl
  | node kind children => cases kind <;> rfl

omit [DecidableEq Parameter] in
private theorem getAllValues_eq
    (children : List (Expr Parameter (NodeKind Member Other Object) Scope)) :
    getAllValues children = children.flatMap getValues := by
  induction children with
  | nil => rfl
  | cons first rest ih => rw [getAllValues, ih, List.flatMap_cons]

omit [DecidableEq Parameter] in
private theorem getValues_rename (expr : Expr Parameter (NodeKind Member Other Object) Scope) :
    getValues (expr.rename name) = getValues expr := by
  induction expr with
  | parameter => rfl
  | scope kind parameters body ih => exact ih
  | node kind children each =>
    have inside : getAllValues (Expr.renameAll name children) = getAllValues children := by
      rw [getAllValues_eq, getAllValues_eq, Expr.renameAll_eq, List.flatMap_map]
      exact List.flatMap_congr each
    cases kind with
    | constant value => rfl
    | _ => exact inside

private theorem getter_rename (apart : Set.InjOn name {old | old ∈ set.names}) :
    getter platform (set.rename name) = getter platform set := by
  unfold getter
  by_cases closed : set.free = []
  · rw [if_pos closed, if_pos ((Expr.free_rename_eq_nil apart).mpr closed),
      Expr.eval_rename platform.meaning apart (by simp [closed])]
  · rw [if_neg closed, if_neg fun none => closed ((Expr.free_rename_eq_nil apart).mp none)]

omit [DecidableEq Parameter] in
private theorem equalsExpr_rename (newVal : Value Object) :
    equalsExpr method (arg.rename name) newVal = (equalsExpr method arg newVal).rename name := by
  have folded : argMember method (arg.rename name) = (argMember method arg).rename name := by
    unfold argMember
    split
    · rfl
    · split <;> rfl
  rw [equalsExpr, folded]
  rfl

omit [DecidableEq Parameter] in
private theorem addTest_rename
    (res : Option (Expr Parameter (NodeKind Member Other Object) Scope)) (o : Value Object) :
    addTest platform method (arg.rename name) (res.map (Expr.rename name)) o =
      (addTest platform method arg res o).map (Option.map (Expr.rename name)) := by
  unfold addTest
  cases newVal platform method o with
  | error exception => rfl
  | ok newVal =>
    simp only [equalsExpr_rename, bind, Except.bind]
    cases res with
    | none => rfl
    | some res =>
      simp only [Option.map_some]
      split
      · rfl
      · split <;> rfl

private theorem foldlM_comm {State Item Error : Type} {change : State → State}
    {step changed : State → Item → Except Error State}
    (turn : ∀ state item, changed (change state) item = (step state item).map change)
    (items : List Item) (state : State) :
    items.foldlM changed (change state) = (items.foldlM step state).map change := by
  induction items generalizing state with
  | nil => rfl
  | cons item rest ih =>
    rw [List.foldlM_cons, List.foldlM_cons, turn]
    cases step state item with
    | error exception => rfl
    | ok later => exact ih later

private theorem replaceCall_rename
    {arguments : List (Expr Parameter (NodeKind Member Other Object) Scope)}
    (apart : ∀ argument ∈ arguments, Set.InjOn name {old | old ∈ argument.names}) :
    replaceCall platform method (Expr.renameAll name arguments) =
      (replaceCall platform method arguments).map (Option.map (Expr.rename name)) := by
  match arguments, apart with
  | [], _ | [_], _ => rfl
  | arg :: obj :: rest, apart =>
    rw [Expr.renameAll, Expr.renameAll, replaceCall, replaceCall, isMember_rename,
      isMember_rename, getValues_rename, getter_rename (apart obj (by simp))]
    split
    · split
      · rfl
      · rfl
      · exact foldlM_comm addTest_rename _ none
    · rfl

private theorem visitAll_rename
    {children : List (Expr Parameter (NodeKind Member Other Object) Scope)}
    (each : ∀ child ∈ children,
      visit platform (child.rename name) = (visit platform child).map (Expr.rename name)) :
    visitAll platform (Expr.renameAll name children) =
      (visitAll platform children).map (Expr.renameAll name) := by
  induction children with
  | nil => rfl
  | cons first rest ih =>
    rw [Expr.renameAll, visitAll, visitAll, each first List.mem_cons_self,
      ih fun child member => each child (List.mem_cons_of_mem first member)]
    cases visit platform first with
    | error exception => rfl
    | ok visited => cases visitAll platform rest <;> rfl

/-- The visitor does the same to a tree whose parameters have other names. -/
theorem visit_rename {expr : Expr Parameter (NodeKind Member Other Object) Scope}
    (apart : Set.InjOn name {old | old ∈ expr.names}) :
    visit platform (expr.rename name) = (visit platform expr).map (Expr.rename name) := by
  induction expr with
  | parameter old => rfl
  | scope kind parameters body ih =>
    rw [Expr.rename, visit, visit, ih (apart.mono Expr.names_subset_scope)]
    cases visit platform body <;> rfl
  | node kind children each =>
    have inner (child) (listed : child ∈ children) :
        Set.InjOn name {old | old ∈ Expr.names child} := apart.mono (Expr.names_subset_node listed)
    have replaced : replace platform kind (Expr.renameAll name children) =
        (replace platform kind children).map (Option.map (Expr.rename name)) := by
      unfold replace
      split
      · exact replaceCall_rename inner
      · rfl
    rw [Expr.rename, visit, visit, replaced,
      visitAll_rename fun child listed => each child listed (inner child listed)]
    cases replace platform kind children with
    | error exception => rfl
    | ok instead =>
      cases instead with
      | none => cases visitAll platform children <;> rfl
      | some res => rfl

end Rename

section Names

variable {platform : Platform Member Other Scope Object} {method : LikeMethod}
  {arg : Expr Parameter (NodeKind Member Other Object) Scope}

/-- Nothing is free or bound that was not. -/
structure Narrows (new old : Expr Parameter (NodeKind Member Other Object) Scope) : Prop where
  free : new.free ⊆ old.free
  bound : new.bound ⊆ old.bound

private theorem narrows_equalsExpr (newVal : Value Object) :
    Narrows (equalsExpr method arg newVal) arg := by
  unfold equalsExpr argMember
  constructor <;> split <;> (try split) <;>
    simp [Expr.free, Expr.freeAll, Expr.bound, Expr.boundAll]

private theorem narrows_pair {kind : NodeKind Member Other Object}
    {left right : Expr Parameter (NodeKind Member Other Object) Scope}
    (first : Narrows left arg) (second : Narrows right arg) :
    Narrows (.node kind [left, right]) arg := by
  constructor
  · simpa [Expr.free, Expr.freeAll] using ⟨first.free, second.free⟩
  · simpa [Expr.bound, Expr.boundAll] using ⟨first.bound, second.bound⟩

private theorem narrows_addTest
    {res later : Option (Expr Parameter (NodeKind Member Other Object) Scope)} {o : Value Object}
    (chain : ∀ old ∈ res, Narrows old arg) (added : addTest platform method arg res o = .ok later) :
    ∀ new ∈ later, Narrows new arg := by
  unfold addTest at added
  cases fits : newVal platform method o with
  | error exception =>
    rw [fits] at added
    cases added
  | ok newVal =>
    have test : Narrows (equalsExpr method arg newVal) arg := narrows_equalsExpr newVal
    rw [fits] at added
    simp only [bind, Except.bind] at added
    cases res with
    | none =>
      cases added
      exact fun new same => Option.some.inj same ▸ test
    | some res =>
      have older := chain res rfl
      simp only at added
      split at added
      · cases added
        exact fun new same => Option.some.inj same ▸ narrows_pair older test
      · split at added
        · cases added
          exact fun new same => Option.some.inj same ▸ narrows_pair older test
        · cases added
          exact fun new same => Option.some.inj same ▸ older

private theorem narrows_foldlM {values : List (Value Object)}
    {res later : Option (Expr Parameter (NodeKind Member Other Object) Scope)}
    (chain : ∀ old ∈ res, Narrows old arg)
    (folded : values.foldlM (addTest platform method arg) res = .ok later) :
    ∀ new ∈ later, Narrows new arg := by
  induction values generalizing res with
  | nil =>
    cases folded
    exact chain
  | cons o rest ih =>
    rw [List.foldlM_cons] at folded
    cases added : addTest platform method arg res o with
    | error exception =>
      rw [added] at folded
      cases folded
    | ok next =>
      rw [added] at folded
      exact ih (narrows_addTest chain added) folded

private theorem narrows_replace {kind : NodeKind Member Other Object}
    {children : List (Expr Parameter (NodeKind Member Other Object) Scope)}
    {res : Expr Parameter (NodeKind Member Other Object) Scope}
    (replaced : replace platform kind children = .ok (some res)) :
    Narrows res (.node kind children) := by
  have within {arg : Expr Parameter (NodeKind Member Other Object) Scope} (listed : arg ∈ children)
      (inside : Narrows res arg) : Narrows res (.node kind children) :=
    ⟨List.Subset.trans inside.free (Expr.free_subset_node listed),
      List.Subset.trans inside.bound (Expr.bound_subset_node listed)⟩
  unfold replace at replaced
  split at replaced
  · unfold replaceCall at replaced
    split at replaced
    · split at replaced
      · split at replaced
        · cases replaced
        · cases replaced
        · exact within List.mem_cons_self
            (narrows_foldlM (fun old none => (by cases none)) replaced res rfl)
      · cases replaced
    · cases replaced
  · cases replaced

omit [DecidableEq Parameter] in
private theorem append_mono {left right more others : List Parameter} (first : left ⊆ more)
    (second : right ⊆ others) : left ++ right ⊆ more ++ others :=
  List.append_subset.mpr ⟨List.subset_append_of_subset_left _ first,
    List.subset_append_of_subset_right _ second⟩

private theorem narrows_visitAll
    {children visited : List (Expr Parameter (NodeKind Member Other Object) Scope)}
    (each : ∀ child ∈ children, ∀ new, visit platform child = .ok new → Narrows new child)
    (ran : visitAll platform children = .ok visited) :
    Expr.freeAll visited ⊆ Expr.freeAll children ∧
      Expr.boundAll visited ⊆ Expr.boundAll children := by
  induction children generalizing visited with
  | nil =>
    cases ran
    exact ⟨List.Subset.refl _, List.Subset.refl _⟩
  | cons first rest ih =>
    rw [visitAll] at ran
    cases one : visit platform first with
    | error exception =>
      rw [one] at ran
      cases ran
    | ok new =>
      cases others : visitAll platform rest with
      | error exception =>
        rw [one, others] at ran
        cases ran
      | ok news =>
        rw [one, others] at ran
        cases ran
        have head := each first List.mem_cons_self new one
        obtain ⟨free, bound⟩ :=
          ih (fun child member => each child (List.mem_cons_of_mem first member)) others
        exact ⟨append_mono head.free free, append_mono head.bound bound⟩

theorem narrows_visit {expr visited : Expr Parameter (NodeKind Member Other Object) Scope}
    (ran : visit platform expr = .ok visited) : Narrows visited expr := by
  induction expr generalizing visited with
  | parameter name =>
    cases ran
    exact ⟨List.Subset.refl _, List.Subset.refl _⟩
  | scope kind parameters body ih =>
    rw [visit] at ran
    cases done : visit platform body with
    | error exception =>
      rw [done] at ran
      cases ran
    | ok inner =>
      rw [done] at ran
      cases ran
      exact ⟨List.filter_subset _ (ih done).free,
        append_mono (List.Subset.refl _) (ih done).bound⟩
  | node kind children each =>
    rw [visit] at ran
    split at ran
    · cases ran
    · rename_i res replaced
      cases ran
      exact narrows_replace replaced
    · cases done : visitAll platform children with
      | error exception =>
        rw [done] at ran
        cases ran
      | ok news =>
        rw [done] at ran
        cases ran
        obtain ⟨free, bound⟩ := narrows_visitAll (fun child listed new => each child listed) done
        exact ⟨free, bound⟩

end Names

section Visitors

/-- `AndAlso` or `OrElse` -/
def connective (trueAnd : Bool) (left right : Expr Parameter (NodeKind Member Other Object) Scope) :
    Expr Parameter (NodeKind Member Other Object) Scope :=
  .node (if trueAnd then .andAlso else .orElse) [left, right]

/-- A visitor that rewrites what is between the connectives, whatever parameters are called. -/
structure Compatible (visitor : ExpressionVisitor Parameter Member Other Scope Object) : Prop where
  uniform : Expr.Uniform visitor
  descends : ∀ trueAnd left right rewritten,
    visitor (connective trueAnd left right) = .ok rewritten ↔
      ∃ newLeft newRight, visitor left = .ok newLeft ∧ visitor right = .ok newRight ∧
        rewritten = connective trueAnd newLeft newRight

namespace Compatible

theorem visit (platform : Platform Member Other Scope Object) :
    Compatible (visit platform : ExpressionVisitor Parameter Member Other Scope Object) where
  uniform := {
    free := fun _ _ ran => (narrows_visit ran).free
    bound := fun _ _ ran => (narrows_visit ran).bound
    renames := fun _ _ apart => visit_rename apart }
  descends trueAnd left right rewritten := by
    have stays : replace platform (if trueAnd then .andAlso else .orElse) [left, right] =
        .ok none := by
      cases trueAnd <;> rfl
    rw [connective, Helpers.visit, stays]
    simp only [visitAll]
    cases Helpers.visit platform left with
    | error exception => simp [bind, Except.bind, Except.map]
    | ok newLeft =>
      cases Helpers.visit platform right with
      | error exception => simp [bind, Except.bind, Except.map]
      | ok newRight =>
        simp [bind, Except.bind, Except.map, pure, Except.pure, connective, eq_comm]

theorem ok : Compatible (.ok : ExpressionVisitor Parameter Member Other Scope Object) where
  uniform := .ok
  descends trueAnd left right rewritten := by simp [eq_comm]

theorem bind {visitor next : ExpressionVisitor Parameter Member Other Scope Object}
    (first : Compatible visitor) (second : Compatible next) :
    Compatible fun expr => visitor expr >>= next where
  uniform := first.uniform.bind second.uniform
  descends trueAnd left right rewritten := by
    simp only [Expr.Uniform.bind_eq_ok_iff, first.descends]
    constructor
    · rintro ⟨_, ⟨newLeft, newRight, ranLeft, ranRight, rfl⟩, after⟩
      obtain ⟨lastLeft, lastRight, moreLeft, moreRight, rfl⟩ :=
        (second.descends trueAnd newLeft newRight rewritten).mp after
      exact ⟨lastLeft, lastRight, ⟨newLeft, ranLeft, moreLeft⟩, ⟨newRight, ranRight, moreRight⟩,
        rfl⟩
    · rintro ⟨lastLeft, lastRight, ⟨newLeft, ranLeft, moreLeft⟩, ⟨newRight, ranRight, moreRight⟩,
        rfl⟩
      exact ⟨_, ⟨newLeft, newRight, ranLeft, ranRight, rfl⟩,
        (second.descends _ _ _ _).mpr ⟨lastLeft, lastRight, moreLeft, moreRight, rfl⟩⟩

theorem foldlM {visitors : List (ExpressionVisitor Parameter Member Other Scope Object)}
    (each : ∀ visitor ∈ visitors, Compatible visitor) :
    Compatible fun expr => visitors.foldlM (fun newExpr v => v newExpr) expr := by
  induction visitors with
  | nil => exact ok
  | cons first rest ih =>
    simp only [List.foldlM_cons]
    exact (each first List.mem_cons_self).bind
      (ih fun visitor listed => each visitor (List.mem_cons_of_mem first listed))

theorem processExpression (platform : Platform Member Other Scope Object)
    {customVisitors : List (ExpressionVisitor Parameter Member Other Scope Object)}
    (custom : ∀ visitor ∈ customVisitors, Compatible visitor) :
    Compatible (processExpression platform customVisitors) := by
  refine (foldlM custom).bind (foldlM fun visitor listed => ?_)
  rw [defaultVisitors, List.mem_singleton] at listed
  exact listed ▸ visit platform

end Compatible

end Visitors

namespace Lambda

variable {visitor : ExpressionVisitor Parameter Member Other Scope Object} {trueAnd : Bool}
  {expr toAdd newExpr newAdd : Lambda Parameter Member Other Scope Object}

/-- The predicate with its body processed. -/
def process (visitor : ExpressionVisitor Parameter Member Other Scope Object)
    (uniform : Expr.Uniform visitor) (lambda : Lambda Parameter Member Other Scope Object) :
    Except ClrException (Lambda Parameter Member Other Scope Object) :=
  match ran : visitor lambda.body with
  | .ok body => .ok {
      parameter := lambda.parameter
      body
      closed := fun name used => lambda.closed name (uniform.free _ _ ran used) }
  | .error exception => .error exception

theorem process_eq_ok {uniform : Expr.Uniform visitor} :
    expr.process visitor uniform = .ok newExpr ↔
      visitor expr.body = .ok newExpr.body ∧ newExpr.parameter = expr.parameter := by
  unfold process
  split
  · rename_i body ran
    constructor
    · rintro ⟨⟩
      exact ⟨ran, rfl⟩
    · rintro ⟨again, same⟩
      obtain rfl : body = newExpr.body := Except.ok.inj (ran.symm.trans again)
      cases newExpr
      cases same
      rfl
  · rename_i exception ran
    simp [ran]

private theorem swap_injOn {new : Parameter} (fresh : new ∉ expr.bound) :
    Set.InjOn (fun name => if name = expr.parameter then new else name)
      {old | old ∈ expr.body.names} := by
  have apart {name : Parameter} (used : name ∈ expr.body.names) : name ≠ new := by
    rintro rfl
    rcases List.mem_append.mp used with unbound | bound
    · exact fresh (expr.closed name unbound ▸ List.mem_cons_self)
    · exact fresh (List.mem_cons_of_mem _ bound)
  intro one here other there same
  simp only at same
  split at same <;> split at same
  · rename_i first second
    rw [first, second]
  · exact absurd same.symm (apart there)
  · exact absurd same (apart here)
  · exact same

theorem process_combine (valid : Compatible visitor) (fresh : toAdd.parameter ∉ expr.bound)
    {combined : Lambda Parameter Member Other Scope Object} :
    (combineBinaryExpression (some expr) toAdd trueAnd).process visitor valid.uniform =
        .ok combined ↔
      ∃ newExpr newAdd, expr.process visitor valid.uniform = .ok newExpr ∧
        toAdd.process visitor valid.uniform = .ok newAdd ∧
        combined = combineBinaryExpression (some newExpr) newAdd trueAnd := by
  have whole : (combineBinaryExpression (some expr) toAdd trueAnd).body =
      connective trueAnd (swapVisitor expr.parameter toAdd.parameter expr.body) toAdd.body := rfl
  have renamed : visitor (swapVisitor expr.parameter toAdd.parameter expr.body) =
      (visitor expr.body).map (swapVisitor expr.parameter toAdd.parameter) :=
    valid.uniform.renames _ _ (swap_injOn fresh)
  rw [process_eq_ok, whole, valid.descends, renamed]
  constructor
  · rintro ⟨⟨newLeft, newRight, ranLeft, ranRight, body⟩, parameter⟩
    cases left : visitor expr.body with
    | error exception =>
      rw [left] at ranLeft
      cases ranLeft
    | ok inner =>
      rw [left] at ranLeft
      cases ranLeft
      refine ⟨⟨expr.parameter, inner, fun name used =>
          expr.closed name (valid.uniform.free _ _ left used)⟩,
        ⟨toAdd.parameter, newRight, fun name used =>
          toAdd.closed name (valid.uniform.free _ _ ranRight used)⟩,
        process_eq_ok.mpr ⟨left, rfl⟩, process_eq_ok.mpr ⟨ranRight, rfl⟩, ?_⟩
      cases combined
      cases parameter
      cases body
      rfl
  · rintro ⟨newExpr, newAdd, first, second, rfl⟩
    obtain ⟨left, sameExpr⟩ := process_eq_ok.mp first
    obtain ⟨right, sameAdd⟩ := process_eq_ok.mp second
    refine ⟨⟨_, newAdd.body, congrArg (Except.map _) left, right, ?_⟩, sameAdd⟩
    rw [← sameExpr, ← sameAdd]
    rfl

theorem bound_process {uniform : Expr.Uniform visitor}
    (done : expr.process visitor uniform = .ok newExpr) : newExpr.bound ⊆ expr.bound := by
  obtain ⟨ran, parameter⟩ := process_eq_ok.mp done
  intro name member
  rcases List.mem_cons.mp member with own | inside
  · exact List.mem_cons.mpr (.inl (own.trans parameter))
  · exact List.mem_cons_of_mem _ (uniform.bound _ _ ran inside)

end Lambda

variable {visitor : ExpressionVisitor Parameter Member Other Scope Object} {trueAnd : Bool}

private def combineOnto (trueAnd : Bool) (expr : Lambda Parameter Member Other Scope Object)
    (rest : List (Lambda Parameter Member Other Scope Object)) :
    Lambda Parameter Member Other Scope Object :=
  rest.foldl (fun expr toAdd => combineBinaryExpression (some expr) toAdd trueAnd) expr

private theorem foldl_combineOnto (expr : Lambda Parameter Member Other Scope Object)
    (rest : List (Lambda Parameter Member Other Scope Object)) :
    rest.foldl (fun expr toAdd => some (combineBinaryExpression expr toAdd trueAnd)) (some expr) =
      some (combineOnto trueAnd expr rest) := by
  induction rest generalizing expr with
  | nil => rfl
  | cons toAdd rest ih => exact ih _

private theorem pairwise_combine {expr toAdd : Lambda Parameter Member Other Scope Object}
    {rest : List (Lambda Parameter Member Other Scope Object)}
    (distinct : (expr :: toAdd :: rest).Pairwise fun earlier later =>
      earlier.bound.Disjoint later.bound) :
    (combineBinaryExpression (some expr) toAdd trueAnd :: rest).Pairwise fun earlier later =>
      earlier.bound.Disjoint later.bound := by
  obtain ⟨apart, later⟩ := List.pairwise_cons.mp distinct
  obtain ⟨next, last⟩ := List.pairwise_cons.mp later
  refine List.pairwise_cons.mpr ⟨fun other listed name here there => ?_, last⟩
  rcases Lambda.mem_bound_combine here with old | new
  · exact apart other (List.mem_cons_of_mem _ listed) old there
  · exact next other listed new there

private theorem process_combineOnto (valid : Compatible visitor)
    {expr processed : Lambda Parameter Member Other Scope Object}
    {rest : List (Lambda Parameter Member Other Scope Object)}
    (distinct : (expr :: rest).Pairwise fun earlier later => earlier.bound.Disjoint later.bound) :
    (combineOnto trueAnd expr rest).process visitor valid.uniform = .ok processed ↔
      ∃ newExpr news, expr.process visitor valid.uniform = .ok newExpr ∧
        List.Forall₂ (fun lambda new => lambda.process visitor valid.uniform = .ok new) rest news ∧
        processed = combineOnto trueAnd newExpr news := by
  induction rest generalizing expr with
  | nil =>
    constructor
    · exact fun done => ⟨processed, [], done, .nil, rfl⟩
    · rintro ⟨newExpr, news, done, none, rfl⟩
      cases none
      exact done
  | cons toAdd rest ih =>
    have fresh : toAdd.parameter ∉ expr.bound := fun member =>
      (List.pairwise_cons.mp distinct).1 toAdd List.mem_cons_self member List.mem_cons_self
    rw [combineOnto, List.foldl_cons, ← combineOnto, ih (pairwise_combine distinct)]
    constructor
    · rintro ⟨between, news, done, others, rfl⟩
      obtain ⟨newExpr, newAdd, first, second, rfl⟩ := (Lambda.process_combine valid fresh).mp done
      exact ⟨newExpr, newAdd :: news, first, .cons second others, rfl⟩
    · rintro ⟨newExpr, all, first, others, rfl⟩
      obtain ⟨⟩ | ⟨second, others⟩ := others
      rename_i newAdd news
      exact ⟨_, news, (Lambda.process_combine valid fresh).mpr ⟨newExpr, newAdd, first, second, rfl⟩,
        others, rfl⟩

private theorem call_combineOnto (platform : Platform Member Other Scope Object)
    {expr newExpr : Lambda Parameter Member Other Scope Object}
    {rest news : List (Lambda Parameter Member Other Scope Object)} {row : Value Object}
    (distinct : (expr :: rest).Pairwise fun earlier later => earlier.bound.Disjoint later.bound)
    (newDistinct : (newExpr :: news).Pairwise fun earlier later =>
      earlier.bound.Disjoint later.bound)
    (same : newExpr.call platform row = expr.call platform row)
    (each : List.Forall₂ (fun old new : Lambda Parameter Member Other Scope Object =>
      new.call platform row = old.call platform row) rest news) :
    (combineOnto trueAnd newExpr news).call platform row =
      (combineOnto trueAnd expr rest).call platform row := by
  induction each generalizing expr newExpr with
  | nil => exact same
  | cons sameAdd _ ih =>
    refine ih (pairwise_combine distinct) (pairwise_combine newDistinct) ?_
    rw [Lambda.call_combine platform ((List.pairwise_cons.mp newDistinct).1 _ List.mem_cons_self),
      Lambda.call_combine platform ((List.pairwise_cons.mp distinct).1 _ List.mem_cons_self), same,
      sameAdd]

omit [DecidableEq Parameter] in
private theorem right_of_forall₂ {Left Right : Type} {property : Right → Prop} {left : List Left}
    {right : List Right} (each : List.Forall₂ (fun _ item => property item) left right) :
    ∀ item ∈ right, property item := by
  induction each with
  | nil => exact fun item none => (List.not_mem_nil none).elim
  | cons holds _ ih => exact List.forall_mem_cons.mpr ⟨holds, ih⟩

private theorem pairwise_process {uniform : Expr.Uniform visitor}
    {lambdas news : List (Lambda Parameter Member Other Scope Object)}
    (done : List.Forall₂ (fun lambda new => lambda.process visitor uniform = .ok new) lambdas news)
    (distinct : lambdas.Pairwise fun earlier later => earlier.bound.Disjoint later.bound) :
    news.Pairwise fun earlier later => earlier.bound.Disjoint later.bound := by
  induction done with
  | nil => exact .nil
  | cons first others ih =>
    obtain ⟨apart, later⟩ := List.pairwise_cons.mp distinct
    refine List.pairwise_cons.mpr ⟨?_, ih later⟩
    refine right_of_forall₂ (List.Forall₂.imp ?_ ((List.forall₂_and_left _ _).mpr ⟨apart, others⟩))
    rintro old new ⟨disjoint, processed⟩ name here there
    exact disjoint (Lambda.bound_process first here) (Lambda.bound_process processed there)

/-- On its way to the database a combination becomes the combination of what its predicates
become, and so it selects the rows it is meant to select wherever they do. -/
theorem combinations_are_processed (platform : Platform Member Other Scope Object)
    {customVisitors : List (ExpressionVisitor Parameter Member Other Scope Object)}
    (custom : ∀ visitor ∈ customVisitors, Compatible visitor)
    {lambdas : List (Lambda Parameter Member Other Scope Object)}
    {combined : Lambda Parameter Member Other Scope Object}
    (distinct : lambdas.Pairwise fun earlier later => earlier.bound.Disjoint later.bound)
    (built : combineAll trueAnd lambdas = some combined) :
    let process := Lambda.process (processExpression platform customVisitors)
      (Compatible.processExpression platform custom).uniform
    ∀ processed, (process combined = .ok processed ↔
        ∃ news, List.Forall₂ (fun lambda new => process lambda = .ok new) lambdas news ∧
          combineAll trueAnd news = some processed) ∧
      (process combined = .ok processed → ∀ row,
        (∀ lambda ∈ lambdas, ∀ new, process lambda = .ok new →
          new.call platform row = lambda.call platform row) →
        processed.call platform row = combined.call platform row) := by
  intro process processed
  have valid := Compatible.processExpression platform custom
  cases lambdas with
  | nil => cases built
  | cons first rest =>
    obtain rfl : combineOnto trueAnd first rest = combined :=
      Option.some.inj ((foldl_combineOnto first rest).symm.trans built)
    have pieces := @process_combineOnto _ _ _ _ _ _ _ trueAnd valid first processed rest distinct
    constructor
    · rw [pieces]
      constructor
      · rintro ⟨newFirst, news, head, others, rfl⟩
        exact ⟨newFirst :: news, .cons head others, foldl_combineOnto newFirst news⟩
      · rintro ⟨all, done, same⟩
        obtain ⟨⟩ | ⟨head, others⟩ := done
        exact ⟨_, _, head, others, (Option.some.inj ((foldl_combineOnto _ _).symm.trans same)).symm⟩
    · intro done row keeps
      obtain ⟨newFirst, news, head, others, rfl⟩ := pieces.mp done
      refine call_combineOnto platform distinct (pairwise_process (.cons head others) distinct)
        (keeps first List.mem_cons_self newFirst head) ?_
      refine List.Forall₂.imp ?_ ((List.forall₂_and_left _ _).mpr ⟨fun lambda listed =>
        keeps lambda (List.mem_cons_of_mem first listed), others⟩)
      exact fun old new ⟨kept, ran⟩ => kept new ran

/-- `x => x.Name.LikeAny(new[] { part })`, for a parameter of any name -/
def nameLike (parameter : Nat) (part : String) : Lambda Nat Unit Empty Unit Unit where
  parameter
  body := .node (.call (.like .likeAny)) [.node (.member ()) [.parameter parameter],
    textArray [part]]
  closed := by simp [Expr.free, Expr.freeAll, textArray]

/-- `x => x.Name.Contains(scope.Value) == true` -/
def nameTest (parameter : Nat) (part : String) : Lambda Nat Unit Empty Unit Unit where
  parameter
  body := equalsExpr .likeAny (.node (.member ()) [.parameter parameter]) (.text part)
  closed _ used := List.mem_singleton.mp used

theorem combinations_are_processed_of_two : ∃ combined processed,
    combineAll false [nameLike 0 "a", nameLike 1 "b"] = some combined ∧
    combined.process (processExpression namePlatform [])
      (Compatible.processExpression namePlatform (by simp)).uniform = .ok processed ∧
    processed.call namePlatform (.text "b") = combined.call namePlatform (.text "b") := by
  have none (visitor) (listed : visitor ∈ ([] : List (ExpressionVisitor Nat Unit Empty Unit Unit))) :
      Compatible visitor := (List.not_mem_nil listed).elim
  have one (parameter : Nat) (part : String) : (nameLike parameter part).process
      (processExpression namePlatform []) (Compatible.processExpression namePlatform none).uniform =
        .ok (nameTest parameter part) := Lambda.process_eq_ok.mpr ⟨rfl, rfl⟩
  have results := @combinations_are_processed _ _ _ _ _ _ false namePlatform [] none
    [nameLike 0 "a", nameLike 1 "b"] _
    (by simp [nameLike, textArray, Lambda.bound, Expr.bound, Expr.boundAll, List.Disjoint]) rfl
  obtain ⟨pieces, kept⟩ := results _
  have done := pieces.mpr
    ⟨[nameTest 0 "a", nameTest 1 "b"], .cons (one 0 "a") (.cons (one 1 "b") .nil), rfl⟩
  refine ⟨_, _, rfl, done, kept done (.text "b") ?_⟩
  intro lambda listed new ran
  rcases List.mem_pair.mp listed with rfl | rfl
  · obtain rfl := Except.ok.inj ((one 0 "a").symm.trans ran)
    rfl
  · obtain rfl := Except.ok.inj ((one 1 "b").symm.trans ran)
    rfl

end OddJob.Helpers
