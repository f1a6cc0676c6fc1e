import OddJob.Helpers.Expressions

/-! `LikeAnyExpressionReplacer`: a call of one of the `ExprHelpers` methods on a member
becomes a chain of `Contains` tests, one for each string of the set. -/

namespace OddJob.Helpers

variable {Parameter Member Other Scope Object : Type} [DecidableEq Parameter]

section Replace

/-- `is MemberExpression` -/
def isMember : Expr Parameter (NodeKind Member Other Object) Scope → Bool
  | .node (.member _) _ | .node (.scopedVariable _) _ => true
  | _ => false

mutual

/-- `GetValuesExpressionReplacer.GetValues`: every constant of the expression. -/
def getValues : Expr Parameter (NodeKind Member Other Object) Scope → List (Value Object)
  | .parameter _ => []
  | .node (.constant value) _ => [value]
  | .node _ children => getAllValues children
  | .scope _ _ body => getValues body

def getAllValues : List (Expr Parameter (NodeKind Member Other Object) Scope) → List (Value Object)
  | [] => []
  | first :: rest => getValues first ++ getAllValues rest

end

variable (platform : Platform Member Other Scope Object)

/-- `o.ToString()` -/
def toText : Value Object → Except ClrException String
  | .null => .error .nullReference
  | .text text => .ok text
  | value => .ok (platform.toText value)

/-- Outside of all lambdas. -/
def unbound : Parameter → Outcome Object :=
  fun _ => .error .invalidOperation

/-- The value of a set that is a member, got by compiling it without parameters; and what
of it is enumerable. -/
def getter (obj : Expr Parameter (NodeKind Member Other Object) Scope) :
    Except ClrException (Option (List (Value Object))) :=
  if obj.free = [] then
    match obj.eval platform.meaning unbound with
    | .error exception => .error exception
    | .ok (.texts texts) => .ok (some (texts.map .text))
    | .ok _ => .ok none
  else .error .invalidOperation

def asUpper (method : LikeMethod) : Bool :=
  "Upper".toList.isSuffixOf method.name.toList

def asLower (method : LikeMethod) : Bool :=
  "Lower".toList.isSuffixOf method.name.toList

def argMember (method : LikeMethod) (arg : Expr Parameter (NodeKind Member Other Object) Scope) :
    Expr Parameter (NodeKind Member Other Object) Scope :=
  if asLower method then .node (.call .toLower) [arg]
  else if asUpper method then .node (.call .toUpper) [arg]
  else arg

/-- The string that a test is made with, which has to fit a field of type string. -/
def newVal (method : LikeMethod) (o : Value Object) : Except ClrException (Value Object) :=
  if asUpper method then (toText platform o).map fun text => .text (platform.toUpper text)
  else if asLower method then (toText platform o).map fun text => .text (platform.toLower text)
  else match o with
    | .null | .text _ => .ok o
    | _ => .error .argument

def equalsExpr (method : LikeMethod) (arg : Expr Parameter (NodeKind Member Other Object) Scope)
    (newVal : Value Object) : Expr Parameter (NodeKind Member Other Object) Scope :=
  .node .equal [.node (.call .contains) [argMember method arg, .node (.scopedVariable newVal) []],
    .node (.constant (.bool true)) []]

/-- One turn of the loop over the values. -/
def addTest (method : LikeMethod) (arg : Expr Parameter (NodeKind Member Other Object) Scope)
    (res : Option (Expr Parameter (NodeKind Member Other Object) Scope)) (o : Value Object) :
    Except ClrException (Option (Expr Parameter (NodeKind Member Other Object) Scope)) := do
  let newVal ← newVal platform method o
  match res with
  | none => return some (equalsExpr method arg newVal)
  | some res =>
    if method.name = "LikeAny" then return some (.node .orElse [res, equalsExpr method arg newVal])
    else if method.name = "LikeAll" then
      return some (.node .andAlso [res, equalsExpr method arg newVal])
    else return some res

/-- What `VisitMethodCall` puts in the place of a call, if anything. -/
def replaceCall (method : LikeMethod) :
    List (Expr Parameter (NodeKind Member Other Object) Scope) →
    Except ClrException (Option (Expr Parameter (NodeKind Member Other Object) Scope))
  | arg :: obj :: _ =>
    if isMember arg then
      match if isMember obj then getter platform obj else .ok (some (getValues obj)) with
      | .error exception => .error exception
      | .ok none => .ok none
      | .ok (some values) => values.foldlM (addTest platform method arg) none
    else .ok none
  | _ => .error .argumentOutOfRange

def replace : NodeKind Member Other Object →
    List (Expr Parameter (NodeKind Member Other Object) Scope) →
    Except ClrException (Option (Expr Parameter (NodeKind Member Other Object) Scope))
  | .call (.like method), arguments => replaceCall platform method arguments
  | _, _ => .ok none

mutual

/-- `LikeAnyExpressionReplacer.Visit` -/
def visit : Expr Parameter (NodeKind Member Other Object) Scope →
    Except ClrException (Expr Parameter (NodeKind Member Other Object) Scope)
  | .parameter name => .ok (.parameter name)
  | .node kind children =>
    match replace platform kind children with
    | .error exception => .error exception
    | .ok (some res) => .ok res
    | .ok none => (visitAll children).map (.node kind)
  | .scope kind parameters body => (visit body).map (.scope kind parameters)

def visitAll : List (Expr Parameter (NodeKind Member Other Object) Scope) →
    Except ClrException (List (Expr Parameter (NodeKind Member Other Object) Scope))
  | [] => .ok []
  | first :: rest => do
    let first ← visit first
    let rest ← visitAll rest
    return first :: rest

end

end Replace

section Tests

/-- The method compares after a change of case. -/
def LikeMethod.folds : LikeMethod → Bool
  | likeAny | likeAll => false
  | likeAnyLower | likeAllLower | likeAnyUpper | likeAllUpper => true

variable (platform : Platform Member Other Scope Object)

/-- The lambda of the method, on a member that may throw. -/
def testOutcome (method : LikeMethod) (myString : Outcome Object) (s : String) :
    Except ClrException Bool :=
  match myString with
  | .error exception => .error exception
  | .ok myString => platform.likeTest method myString s

variable {platform} {method : LikeMethod}
  {arg res : Expr Parameter (NodeKind Member Other Object) Scope}

theorem newVal_text (s : String) :
    newVal platform method (.text s) = .ok (.text (platform.fold method s)) := by
  cases method <;> rfl

theorem newVal_of_folds (folds : method.folds = true) {o : Value Object} {s : String}
    (text : toText platform o = .ok s) :
    newVal platform method o = .ok (.text (platform.fold method s)) := by
  cases method <;> cases folds <;>
    exact congrArg (Except.map fun text => Value.text _) text

private theorem contains_argMember (outcome : Outcome Object) (s : String) :
    contains (if asLower method then mapText platform.toLower outcome
      else if asUpper method then mapText platform.toUpper outcome else outcome)
      (.ok (.text (platform.fold method s))) = testOutcome platform method outcome s := by
  cases outcome with
  | error exception => cases method <;> rfl
  | ok value => cases method <;> rfl

theorem eval_equalsExpr (env : Parameter → Outcome Object) (s : String) :
    (equalsExpr method arg (.text (platform.fold method s))).eval platform.meaning env =
      ofBool (testOutcome platform method (arg.eval platform.meaning env) s) := by
  have folded : (argMember method arg).eval platform.meaning env =
      if asLower method then mapText platform.toLower (arg.eval platform.meaning env)
      else if asUpper method then mapText platform.toUpper (arg.eval platform.meaning env)
      else arg.eval platform.meaning env := by
    rw [argMember]
    split
    · rw [Expr.eval_node]
      rfl
    · split
      · rw [Expr.eval_node]
        rfl
      · rfl
  rw [← contains_argMember, ← folded]
  rw [equalsExpr, Expr.eval_node, List.map_cons, List.map_singleton, Expr.eval_node,
    Expr.eval_node]
  exact platform.node_equal_true _

variable (platform arg res) in
theorem foldlM_addTest (plain : method.folds = false) (texts : List String) :
    ∃ chain, (texts.map Value.text).foldlM (addTest platform method arg) (some res) =
        .ok (some chain) ∧
      ∀ env outcome, res.eval platform.meaning env = ofBool outcome →
        chain.eval platform.meaning env = ofBool (shortCircuit method.requireAll outcome
          (allInOrder method.requireAll
            (texts.map (testOutcome platform method (arg.eval platform.meaning env))))) := by
  induction texts generalizing res with
  | nil =>
    refine ⟨res, rfl, fun env outcome known => ?_⟩
    rw [known]
    exact congrArg ofBool (shortCircuit_unit outcome).symm
  | cons first rest ih =>
    have one : addTest platform method arg (some res) (.text first) =
        .ok (some (.node (if method.requireAll then .andAlso else .orElse)
          [res, equalsExpr method arg (.text (platform.fold method first))])) := by
      rw [addTest, newVal_text]
      cases method <;> cases plain <;> rfl
    obtain ⟨chain, folded, value⟩ := ih (.node (if method.requireAll then .andAlso else .orElse)
      [res, equalsExpr method arg (.text (platform.fold method first))])
    refine ⟨chain, ?_, fun env outcome known => ?_⟩
    · rw [List.map_cons, List.foldlM_cons, one]
      exact folded
    · have step : (Expr.node (if method.requireAll then .andAlso else .orElse)
          [res, equalsExpr method arg (.text (platform.fold method first))]).eval
            platform.meaning env = ofBool (shortCircuit method.requireAll outcome
              (testOutcome platform method (arg.eval platform.meaning env) first)) := by
        rw [Expr.eval_node, List.map_cons, List.map_singleton, known, eval_equalsExpr]
        cases method.requireAll <;> simp [Platform.meaning, Platform.node]
      rw [value env _ step, shortCircuit_assoc]
      rfl

omit [DecidableEq Parameter] in
theorem foldlM_addTest_of_folds (folds : method.folds = true) (texts : List String) :
    (texts.map Value.text).foldlM (addTest platform method arg) (some res) = .ok (some res) := by
  induction texts with
  | nil => rfl
  | cons first rest ih =>
    have one : addTest platform method arg (some res) (.text first) = .ok (some res) := by
      rw [addTest, newVal_text]
      cases method <;> cases folds <;> rfl
    rw [List.map_cons, List.foldlM_cons, one]
    exact ih

variable (platform method arg) in
theorem foldlM_texts (first : String) (rest : List String) :
    ∃ res, ((first :: rest).map Value.text).foldlM (addTest platform method arg) none =
        .ok (some res) ∧
      ∀ env, res.eval platform.meaning env = ofBool (if method.folds then
          testOutcome platform method (arg.eval platform.meaning env) first
        else allInOrder method.requireAll ((first :: rest).map
          (testOutcome platform method (arg.eval platform.meaning env)))) := by
  have one : addTest platform method arg none (.text first) =
      .ok (some (equalsExpr method arg (.text (platform.fold method first)))) := by
    rw [addTest, newVal_text]
    rfl
  cases plain : method.folds with
  | true =>
    refine ⟨equalsExpr method arg (.text (platform.fold method first)), ?_, fun env => ?_⟩
    · rw [List.map_cons, List.foldlM_cons, one]
      exact foldlM_addTest_of_folds plain rest
    · exact eval_equalsExpr env first
  | false =>
    obtain ⟨chain, folded, value⟩ := foldlM_addTest platform arg
      (equalsExpr method arg (.text (platform.fold method first))) plain rest
    refine ⟨chain, ?_, fun env => ?_⟩
    · rw [List.map_cons, List.foldlM_cons, one]
      exact folded
    · exact value env _ (eval_equalsExpr env first)

end Tests

section Calls

variable (platform : Platform Member Other Scope Object)

/-- `new[] { .. }` -/
def textArray (texts : List String) : Expr Parameter (NodeKind Member Other Object) Scope :=
  .node .newArrayInit (texts.map fun text => .node (.constant (.text text)) [])

/-- The sets a call is for: a member, an array of string constants, or a constant that is
itself an array. -/
inductive Given : Expr Parameter (NodeKind Member Other Object) Scope → Prop where
  | member {set} (isMember : isMember set = true) : Given set
  | array (texts : List String) : Given (textArray texts)
  | constant (texts : List String) : Given (.node (.constant (.texts texts)) [])

/-- The string that the first test is made with. -/
def firstTested (set : Expr Parameter (NodeKind Member Other Object) Scope)
    (texts : List String) : Option String :=
  match set with
  | .node (.constant value) _ => some (platform.toText value)
  | _ => texts.head?

/-- Wherever the member has a value, the one string decides what the set does. -/
def Decides (method : LikeMethod) (arg : Expr Parameter (NodeKind Member Other Object) Scope)
    (s : String) (texts : List String) : Prop :=
  ∀ env myString, arg.eval platform.meaning env = .ok myString →
    platform.likeTest method myString s = platform.like method myString (.texts texts)

/-- A call whose rewriting agrees with it. -/
structure Faithful (method : LikeMethod)
    (arg set : Expr Parameter (NodeKind Member Other Object) Scope) : Prop where
  closed : isMember set = true → set.free = []
  evaluated : ∃ value, set.eval platform.meaning unbound = .ok value
  fitting : ∀ texts, set = .node (.constant (.texts texts)) [] → method.folds = true
  decides : method.folds = true → ∀ texts, set.eval platform.meaning unbound = .ok (.texts texts) →
    ∀ s ∈ firstTested platform set texts, Decides platform method arg s texts

variable {platform} {method : LikeMethod}
  {arg set : Expr Parameter (NodeKind Member Other Object) Scope}

theorem eval_call {env : Parameter → Outcome Object} {texts : List String}
    (known : set.eval platform.meaning env = .ok (.texts texts)) :
    (Expr.node (.call (.like method)) [arg, set]).eval platform.meaning env =
      ofBool (match arg.eval platform.meaning env with
        | .error exception => .error exception
        | .ok myString => platform.like method myString (.texts texts)) := by
  rw [Expr.eval_node, List.map_cons, List.map_singleton, known]
  cases arg.eval platform.meaning env with
  | error exception => rfl
  | ok myString => rfl

theorem ofBool_injective {left right : Except ClrException Bool}
    (same : (ofBool left : Outcome Object) = ofBool right) : left = right := by
  simpa using congrArg asBool same

/-- A chain over the strings of the set agrees with the call where no case is changed, and
where the first string decides. -/
theorem replaced_iff {res : Expr Parameter (NodeKind Member Other Object) Scope}
    {first : String} {texts : List String}
    (known : ∀ env, set.eval platform.meaning env = .ok (.texts texts))
    (value : ∀ env, res.eval platform.meaning env =
      ofBool (testOutcome platform method (arg.eval platform.meaning env) first)) :
    (∀ env, res.eval platform.meaning env =
      (Expr.node (.call (.like method)) [arg, set]).eval platform.meaning env) ↔
      Decides platform method arg first texts := by
  constructor
  · intro same env myString evaluated
    have agree := same env
    rw [value env, eval_call (known env), evaluated] at agree
    exact ofBool_injective agree
  · intro decides env
    rw [value env, eval_call (known env)]
    cases evaluated : arg.eval platform.meaning env with
    | error exception => rfl
    | ok myString => exact congrArg ofBool (decides env myString evaluated)

/-- So it does where the chain has a test for every string. -/
theorem eval_all_tests {env : Parameter → Outcome Object} {first : String} {rest : List String}
    (known : set.eval platform.meaning env = .ok (.texts (first :: rest))) :
    ofBool (allInOrder method.requireAll ((first :: rest).map
        (testOutcome platform method (arg.eval platform.meaning env)))) =
      (Expr.node (.call (.like method)) [arg, set]).eval platform.meaning env := by
  rw [eval_call known]
  cases arg.eval platform.meaning env with
  | error exception => rfl
  | ok myString => rfl

variable (method) in
private theorem replaced_texts (member : isMember arg = true) {texts : List String}
    (values : (if isMember set then getter platform set else .ok (some (getValues set))) =
      .ok (some (texts.map .text)))
    (known : ∀ env, set.eval platform.meaning env = .ok (.texts texts)) :
    (texts = [] ∧ replaceCall platform method [arg, set] = .ok none) ∨
    ∃ first rest res, texts = first :: rest ∧
      replaceCall platform method [arg, set] = .ok (some res) ∧
      ((∀ env, res.eval platform.meaning env =
          (Expr.node (.call (.like method)) [arg, set]).eval platform.meaning env) ↔
        (method.folds = true → Decides platform method arg first texts)) := by
  have loop : replaceCall platform method [arg, set] =
      (texts.map Value.text).foldlM (addTest platform method arg) none := by
    rw [replaceCall, if_pos member, values]
  cases texts with
  | nil => exact .inl ⟨rfl, loop⟩
  | cons first rest =>
    obtain ⟨res, folded, value⟩ := foldlM_texts platform method arg first rest
    refine .inr ⟨first, rest, res, rfl, loop.trans folded, ?_⟩
    cases folds : method.folds with
    | true =>
      simp only [folds, ↓reduceIte] at value
      rw [replaced_iff known value]
      simp
    | false =>
      simp only [folds, Bool.false_eq_true, ↓reduceIte] at value
      constructor
      · exact fun _ impossible => by cases impossible
      · intro _ env
        rw [value env, eval_all_tests (known env)]

omit [DecidableEq Parameter] in
private theorem getValues_array (texts : List String) :
    getValues (textArray texts : Expr Parameter (NodeKind Member Other Object) Scope) =
      texts.map .text := by
  rw [textArray, getValues]
  · induction texts with
    | nil => rfl
    | cons first rest ih =>
      rw [List.map_cons, getAllValues, ih]
      rfl
  · intro value same
    cases same

private theorem eval_array (env : Parameter → Outcome Object) (texts : List String) :
    (textArray texts : Expr Parameter (NodeKind Member Other Object) Scope).eval
      platform.meaning env = .ok (.texts texts) := by
  rw [textArray, Expr.eval_node, List.map_map]
  exact platform.node_newArrayInit texts

private theorem faithful_iff {texts : List String} (closed : isMember set = true → set.free = [])
    (known : set.eval platform.meaning unbound = .ok (.texts texts))
    (literal : ∀ value children, set ≠ .node (.constant value) children) :
    Faithful platform method arg set ↔
      (method.folds = true → ∀ s ∈ texts.head?, Decides platform method arg s texts) := by
  have tested (texts : List String) : firstTested platform set texts = texts.head? := by
    rw [firstTested]
    exact literal
  constructor
  · intro faithful folds s first
    exact faithful.decides folds texts known s (tested texts ▸ first)
  · intro decides
    refine ⟨closed, ⟨_, known⟩, fun texts same => absurd same (literal _ _), ?_⟩
    intro folds other same s first
    obtain rfl : texts = other := by simpa [known] using same
    exact decides folds s (tested texts ▸ first)

variable (platform method arg set) in
/-- A call on a member stays, or becomes what agrees with it exactly where it is faithful,
or the visitor throws where it is not. -/
inductive Replaced : Prop where
  | stays (same : replaceCall platform method [arg, set] = .ok none)
    (faithful : Faithful platform method arg set)
  | becomes {res} (other : replaceCall platform method [arg, set] = .ok (some res))
    (agrees : (∀ env, res.eval platform.meaning env =
        (Expr.node (.call (.like method)) [arg, set]).eval platform.meaning env) ↔
      Faithful platform method arg set)
  | throws {exception} (thrown : replaceCall platform method [arg, set] = .error exception)
    (unfaithful : ¬ Faithful platform method arg set)

private theorem replaced_of_texts (member : isMember arg = true) {texts : List String}
    (values : (if isMember set then getter platform set else .ok (some (getValues set))) =
      .ok (some (texts.map .text)))
    (known : ∀ env, set.eval platform.meaning env = .ok (.texts texts))
    (closed : isMember set = true → set.free = [])
    (literal : ∀ value children, set ≠ .node (.constant value) children) :
    Replaced platform method arg set := by
  have faithful : Faithful platform method arg set ↔
      (method.folds = true → ∀ s ∈ texts.head?, Decides platform method arg s texts) :=
    faithful_iff closed (known _) literal
  rcases replaced_texts method member values known with
    ⟨rfl, stays⟩ | ⟨first, rest, res, rfl, becomes, agrees⟩
  · exact .stays stays (faithful.mpr fun _ s none => by cases none)
  · refine .becomes becomes (agrees.trans ?_)
    rw [faithful]
    simp

private theorem replaced_member (member : isMember arg = true) (memberSet : isMember set = true) :
    Replaced platform method arg set := by
  have literal : ∀ value children, set ≠ .node (.constant value) children := by
    rintro value children rfl
    cases memberSet
  by_cases closed : set.free = []
  · have read : getter platform set = match set.eval platform.meaning unbound with
        | .error exception => .error exception
        | .ok (.texts texts) => .ok (some (texts.map .text))
        | .ok _ => .ok none := by
      rw [getter, if_pos closed]
    cases known : set.eval platform.meaning unbound with
    | error exception =>
      have thrown : replaceCall platform method [arg, set] = .error exception := by
        rw [replaceCall, if_pos member, if_pos memberSet, read, known]
      refine .throws thrown fun faithful => ?_
      obtain ⟨value, evaluated⟩ := faithful.evaluated
      rw [known] at evaluated
      cases evaluated
    | ok value =>
      cases value
      case texts texts =>
        rw [known] at read
        refine replaced_of_texts member ((if_pos memberSet).trans read) (fun env => ?_)
          (fun _ => closed) literal
        rw [← known]
        apply Expr.eval_congr
        rw [closed]
        exact fun name none => absurd none List.not_mem_nil
      -- a value without strings is no set, and the call stays
      all_goals
        refine .stays ?_ ⟨fun _ => closed, ⟨_, known⟩,
          fun texts same => absurd same (literal _ _), fun _ texts other => ?_⟩
        · rw [replaceCall, if_pos member, if_pos memberSet, read, known]
        · rw [known] at other
          cases other
  · have thrown : replaceCall platform method [arg, set] = .error .invalidOperation := by
      rw [replaceCall, if_pos member, if_pos memberSet, getter, if_neg closed]
    exact .throws thrown fun faithful => closed (faithful.closed memberSet)

private theorem replaced_constant (member : isMember arg = true) (texts : List String) :
    Replaced platform method arg (.node (.constant (.texts texts)) [] :
      Expr Parameter (NodeKind Member Other Object) Scope) := by
  have known (env : Parameter → Outcome Object) :
      (.node (.constant (.texts texts)) [] : Expr Parameter (NodeKind Member Other Object)
        Scope).eval platform.meaning env = .ok (.texts texts) :=
    Expr.eval_node _ _ _ _
  have loop : replaceCall platform method [arg, .node (.constant (.texts texts)) []] =
      [Value.texts texts].foldlM (addTest platform method arg) none := by
    rw [replaceCall, if_pos member]
    rfl
  cases folds : method.folds with
  | false =>
    have thrown : replaceCall platform method [arg, .node (.constant (.texts texts)) []] =
        .error .argument := by
      rw [loop]
      cases method <;> cases folds <;> rfl
    refine .throws thrown fun faithful => ?_
    rw [faithful.fitting texts rfl] at folds
    cases folds
  | true =>
    have text : newVal platform method (.texts texts) =
        .ok (.text (platform.fold method (platform.toText (.texts texts)))) :=
      newVal_of_folds folds rfl
    have becomes : replaceCall platform method [arg, .node (.constant (.texts texts)) []] =
        .ok (some (equalsExpr method arg
          (.text (platform.fold method (platform.toText (.texts texts)))))) := by
      rw [loop, List.foldlM_cons, addTest, text]
      rfl
    refine .becomes becomes ?_
    rw [replaced_iff known fun env => eval_equalsExpr env _]
    constructor
    · intro decides
      refine ⟨fun impossible => (by cases impossible), ⟨_, known _⟩, fun _ _ => folds, ?_⟩
      intro _ other same s tested
      obtain rfl : texts = other := by simpa [known] using same
      obtain rfl : platform.toText (.texts texts) = s := Option.some.inj tested
      exact decides
    · exact fun faithful => faithful.decides folds texts (known _) _ rfl

theorem replaced (member : isMember arg = true) (given : Given set) :
    Replaced platform method arg set := by
  cases given with
  | member memberSet => exact replaced_member member memberSet
  | array texts =>
    refine replaced_of_texts member ?_ (eval_array · texts) (fun impossible => by cases impossible)
      (fun _ _ same => by cases same)
    rw [getValues_array]
    rfl
  | constant texts => exact replaced_constant member texts

end Calls

section Tree

variable (platform : Platform Member Other Scope Object)

/-- The parts of a tree that the visitor comes to: it does not look into a call that it has
replaced. -/
inductive Visits : Expr Parameter (NodeKind Member Other Object) Scope →
    Expr Parameter (NodeKind Member Other Object) Scope → Prop where
  | self (expr) : Visits expr expr
  | child {kind children child part} (stays : replace platform kind children = .ok none)
    (listed : child ∈ children) (inside : Visits child part) : Visits (.node kind children) part
  | body {kind parameters body part} (inside : Visits body part) :
    Visits (.scope kind parameters body) part

variable {platform} in
theorem Visits.trans {first second third : Expr Parameter (NodeKind Member Other Object) Scope}
    (outer : Visits platform first second) (inner : Visits platform second third) :
    Visits platform first third := by
  induction outer with
  | self expr => exact inner
  | child stays listed _ ih => exact .child stays listed (ih inner)
  | body _ ih => exact .body (ih inner)

/-- The visited tree evaluates to what the tree does, on every row. -/
def Keeps (expr : Expr Parameter (NodeKind Member Other Object) Scope) : Prop :=
  ∃ visited, visit platform expr = .ok visited ∧
    ∀ env, visited.eval platform.meaning env = expr.eval platform.meaning env

variable {platform}

private theorem keeps_children {children : List (Expr Parameter (NodeKind Member Other Object) Scope)}
    (each : ∀ child ∈ children, Keeps platform child) :
    ∃ visited, visitAll platform children = .ok visited ∧
      ∀ env, visited.map (Expr.eval platform.meaning env) =
        children.map (Expr.eval platform.meaning env) := by
  induction children with
  | nil => exact ⟨[], rfl, fun _ => rfl⟩
  | cons first rest ih =>
    obtain ⟨one, visitedOne, sameOne⟩ := each first List.mem_cons_self
    obtain ⟨others, visitedOthers, sameOthers⟩ :=
      ih fun child member => each child (List.mem_cons_of_mem _ member)
    refine ⟨one :: others, ?_, fun env => ?_⟩
    · rw [visitAll, visitedOne, visitedOthers]
      rfl
    · rw [List.map_cons, sameOne, sameOthers, List.map_cons]

private theorem keeps_node {kind : NodeKind Member Other Object}
    {children : List (Expr Parameter (NodeKind Member Other Object) Scope)}
    (stays : replace platform kind children = .ok none)
    (each : ∀ child ∈ children, Keeps platform child) : Keeps platform (.node kind children) := by
  obtain ⟨visited, ran, same⟩ := keeps_children each
  refine ⟨.node kind visited, ?_, fun env => ?_⟩
  · rw [visit, stays, ran]
    rfl
  · rw [Expr.eval_node, same, Expr.eval_node]

private theorem keeps_scope {kind : Scope} {parameters : List Parameter}
    {body : Expr Parameter (NodeKind Member Other Object) Scope} (keeps : Keeps platform body) :
    Keeps platform (.scope kind parameters body) := by
  obtain ⟨visited, ran, same⟩ := keeps
  refine ⟨.scope kind parameters visited, ?_, fun env => ?_⟩
  · rw [visit, ran]
    rfl
  · rw [Expr.eval_scope, Expr.eval_scope]
    congr 1
    funext outcomes
    exact same _

private theorem like_of_replaced {kind : NodeKind Member Other Object}
    {children : List (Expr Parameter (NodeKind Member Other Object) Scope)}
    (replaced : replace platform kind children ≠ .ok none) :
    ∃ method, kind = .call (.like method) := by
  cases kind
  case call method =>
    cases method
    case like method => exact ⟨method, rfl⟩
    all_goals exact absurd rfl replaced
  all_goals exact absurd rfl replaced

/-- Every part of a tree that the visitor comes to keeps its value on every row, exactly
when the calls among them on a member are faithful. -/
theorem visits_keep_iff {expr : Expr Parameter (NodeKind Member Other Object) Scope}
    (given : ∀ method arguments, Visits platform expr (.node (.call (.like method)) arguments) →
      ∃ arg set, arguments = [arg, set] ∧ Given set) :
    (∀ part, Visits platform expr part → Keeps platform part) ↔
      ∀ method arg set, Visits platform expr (.node (.call (.like method)) [arg, set]) →
        isMember arg = true → Faithful platform method arg set := by
  constructor
  · intro keeps method arg set reached member
    obtain ⟨_, _, same, shape⟩ := given method _ reached
    cases same
    obtain ⟨visited, ran, value⟩ := keeps _ reached
    rw [visit, replace] at ran
    rcases replaced member shape with ⟨-, faithful⟩ | ⟨becomes, agrees⟩ | ⟨thrown, -⟩
    · exact faithful
    · rw [becomes] at ran
      obtain rfl := Except.ok.inj ran
      exact agrees.mp value
    · rw [thrown] at ran
      cases ran
  · intro faithful part
    induction part with
    | parameter name => exact fun _ => ⟨_, rfl, fun _ => rfl⟩
    | scope kind parameters body ih =>
      exact fun reached => keeps_scope (ih (reached.trans (.body (.self body))))
    | node kind children each =>
      intro reached
      by_cases stays : replace platform kind children = .ok none
      · exact keeps_node stays fun child listed =>
          each child listed (reached.trans (.child stays listed (.self child)))
      · obtain ⟨method, rfl⟩ := like_of_replaced stays
        obtain ⟨arg, set, rfl, shape⟩ := given method _ reached
        rw [replace] at stays
        by_cases member : isMember arg = true
        · have agreed := faithful method arg set reached member
          rcases replaced member shape with ⟨same, -⟩ | ⟨becomes, agrees⟩ | ⟨-, unfaithful⟩
          · exact absurd same stays
          · refine ⟨_, ?_, agrees.mpr agreed⟩
            rw [visit, replace, becomes]
          · exact absurd agreed unfaithful
        · exact absurd (by rw [replaceCall, if_neg member]) stays

end Tree

/-- `x => x.Name.LikeAnyLower(new[] { .. })` -/
def likeAnyLowerCall (texts : List String) : Expr Nat (NodeKind Unit Empty Unit) Unit :=
  .node (.call (.like .likeAnyLower)) [.node (.member ()) [.parameter 0], textArray texts]

private theorem eq_of_visits_one {expr part : Expr Nat (NodeKind Unit Empty Unit) Unit}
    (reached : Visits namePlatform expr part) (whole : expr = likeAnyLowerCall ["a"]) :
    part = likeAnyLowerCall ["a"] := by
  cases reached with
  | self => exact whole
  | child stays listed inside =>
    cases whole
    cases stays
  | body inside => cases whole

theorem visits_keep_iff_of_one : Keeps namePlatform (likeAnyLowerCall ["a"]) := by
  refine (visits_keep_iff ?_).mpr ?_ _ (.self _)
  · intro method arguments reached
    cases eq_of_visits_one reached rfl
    exact ⟨_, _, rfl, .array ["a"]⟩
  · intro method arg set reached _
    cases eq_of_visits_one reached rfl
    refine ⟨fun impossible => (by cases impossible), ⟨_, eval_array _ _⟩,
      fun texts same => (by cases same), ?_⟩
    intro _ texts same s first
    obtain rfl : ["a"] = texts := by
      rw [eval_array] at same
      exact Value.texts.inj (Except.ok.inj same)
    obtain rfl : "a" = s := Option.some.inj first
    intro env myString _
    exact (shortCircuit_unit _).symm

/-- The second string is not looked for. -/
theorem likeAnyLower_drops_second : ∃ visited,
    visit namePlatform (likeAnyLowerCall ["a", "b"]) = .ok visited ∧
    asBool (visited.eval namePlatform.meaning fun _ => .ok (.text "b")) = .ok false ∧
    asBool ((likeAnyLowerCall ["a", "b"]).eval namePlatform.meaning fun _ => .ok (.text "b")) =
      .ok true := by
  refine ⟨_, rfl, rfl, ?_⟩
  rw [likeAnyLowerCall, eval_call (eval_array _ _)]
  rfl

end OddJob.Helpers
