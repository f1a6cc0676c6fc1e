import OddJob.Creator
import Mathlib.Data.List.Perm.Basic

/-! `DefaultJobExecutor`: the method is looked up again by reflection. Reflection
itself is a parameter, since the overloads of a class, the conversions of the
binder and the order of `GetMethods` are the platform's. -/

namespace OddJob

variable {CliType ParamType Value Instance : Type}

/-- What the executor asks of reflection. -/
structure Reflection (CliType ParamType Value : Type) where
  /-- `value.GetType()` -/
  getType : Value → CliType
  publicMethods : CliType → List (MethodInfo CliType ParamType)
  /-- `IsAbstract && IsSealed` -/
  isStatic : CliType → Bool
  /-- the binder passes a value of this type for a parameter of that type -/
  accepts : ParamType → CliType → Bool
  /-- the binder prefers the first method to the second for arguments of these types -/
  better : MethodInfo CliType ParamType → MethodInfo CliType ParamType → List CliType → Bool
  asymmetric : ∀ first second types, better first second types = true →
    better second first types = false

/-- The call that `method.Invoke` makes. -/
structure Invocation (CliType ParamType Value Instance : Type) where
  method : MethodInfo CliType ParamType
  genericArguments : List CliType
  instance_ : Option Instance
  arguments : List (Option Value)
  deriving DecidableEq

namespace Reflection

variable [DecidableEq CliType] [DecidableEq ParamType]

/-- The method can be called with arguments of these types. -/
def applicable (reflection : Reflection CliType ParamType Value)
    (method : MethodInfo CliType ParamType) (types : List CliType) : Bool :=
  method.parameters.length == types.length &&
    (method.parameters.zip types).all fun (parameter, type) => reflection.accepts parameter.2 type

/-- The binder prefers the method to every other candidate. -/
def wins (reflection : Reflection CliType ParamType Value)
    (candidates : List (MethodInfo CliType ParamType)) (types : List CliType)
    (method : MethodInfo CliType ParamType) : Bool :=
  candidates.all fun other => other = method || reflection.better method other types

/-- `Type.GetMethod(name, types)`: the best match, null where nothing matches. -/
def getMethod (reflection : Reflection CliType ParamType Value)
    (methods : List (MethodInfo CliType ParamType)) (name : String) (types : List CliType) :
    Except ClrException (Option (MethodInfo CliType ParamType)) :=
  let candidates := methods.filter fun method =>
    method.name = name && reflection.applicable method types
  match candidates with
  | [] => .ok none
  | _ :: _ =>
    match candidates.find? (reflection.wins candidates types) with
    | some method => .ok (some method)
    | none => .error .ambiguousMatch

/-- `MakeGenericMethod` is asked of the first method with these counts. -/
def genericCandidate (name : String) (genericTypes arguments : Nat)
    (method : MethodInfo CliType ParamType) : Bool :=
  method.name = name && method.genericArity != 0 && method.genericArity == genericTypes &&
    method.parameters.length == arguments

/-- No other overload can be mistaken for the named method by a lookup from the
argument values, the number of generic arguments and the number of parameters. -/
def Unmistakable (reflection : Reflection CliType ParamType Value) (target : CliType)
    (methodCall : MethodCallExpression CliType ParamType Value) (values : List (Option Value)) :
    Prop :=
  let method := methodCall.method
  if methodCall.genericArguments = [] then
    ∃ given : List Value, values = given.map some ∧
      reflection.applicable method (given.map reflection.getType) = true ∧
      ∀ other ∈ reflection.publicMethods target, other.name = method.name → other ≠ method →
        reflection.applicable other (given.map reflection.getType) = true →
        reflection.better method other (given.map reflection.getType) = true
  else
    ∀ other ∈ reflection.publicMethods target, other.name = method.name →
      other.genericArity = method.genericArity →
      other.parameters.length = method.parameters.length → other = method

/-- `GetMethod` finds a method exactly when the binder prefers it to all others that apply. -/
theorem getMethod_eq_some_iff (reflection : Reflection CliType ParamType Value)
    {methods : List (MethodInfo CliType ParamType)} {name : String} {types : List CliType}
    {method : MethodInfo CliType ParamType} :
    reflection.getMethod methods name types = .ok (some method) ↔
      method ∈ methods ∧ method.name = name ∧ reflection.applicable method types = true ∧
      ∀ other ∈ methods, other.name = name → other ≠ method →
        reflection.applicable other types = true → reflection.better method other types = true := by
  have candidate (other : MethodInfo CliType ParamType) :
      other ∈ methods.filter (fun method => method.name = name &&
        reflection.applicable method types) ↔
      other ∈ methods ∧ other.name = name ∧ reflection.applicable other types = true := by
    simp [List.mem_filter]
  rw [getMethod]
  generalize methods.filter (fun method => method.name = name &&
    reflection.applicable method types) = candidates at candidate
  have winning (winner : MethodInfo CliType ParamType) :
      reflection.wins candidates types winner = true ↔
        ∀ other ∈ methods, other.name = name → other ≠ winner →
          reflection.applicable other types = true →
          reflection.better winner other types = true := by
    rw [wins, List.all_eq_true]
    constructor
    · intro all other member named different applies
      simpa [different] using all other ((candidate other).mpr ⟨member, named, applies⟩)
    · intro all other member
      obtain ⟨present, named, applies⟩ := (candidate other).mp member
      by_cases same : other = winner
      · simp [same]
      · simp [all other present named same applies]
  constructor
  · intro found
    have best : candidates.find? (reflection.wins candidates types) = some method := by
      split at found
      · simp at found
      · split at found
        · simp_all
        · simp at found
    obtain ⟨present, named, applies⟩ := (candidate method).mp (List.mem_of_find?_eq_some best)
    exact ⟨present, named, applies, (winning method).mp (List.find?_some best)⟩
  · rintro ⟨present, named, applies, preferred⟩
    have listed := (candidate method).mpr ⟨present, named, applies⟩
    have best : candidates.find? (reflection.wins candidates types) = some method := by
      obtain ⟨winner, found⟩ := Option.isSome_iff_exists.mp
        (List.find?_isSome.mpr ⟨method, listed, (winning method).mpr preferred⟩)
      obtain ⟨otherPresent, sameName, otherApplies⟩ :=
        (candidate winner).mp (List.mem_of_find?_eq_some found)
      by_contra unfound
      have different : winner ≠ method := fun same => unfound (same ▸ found)
      -- two winners would each be preferred to the other
      have first := preferred winner otherPresent sameName different otherApplies
      have second := (winning winner).mp (List.find?_some found) method present named
        different.symm applies
      exact absurd ((reflection.asymmetric _ _ _ first).symm.trans second) (by simp)
    cases candidates with
    | nil => cases listed
    | cons head tail => simp only [best]

end Reflection

namespace DefaultJobExecutor

variable [DecidableEq CliType] [DecidableEq ParamType]

/-- `expr.JobArgs.Select(q => q.Value.GetType()).ToArray()` -/
def argumentTypes (reflection : Reflection CliType ParamType Value) :
    List (OddJobParameter Value) → Except ClrException (List CliType)
  | [] => .ok []
  | argument :: rest => do
    match argument.value with
    | none => throw .nullReference
    | some value =>
      let types ← argumentTypes reflection rest
      return reflection.getType value :: types

/-- `DefaultJobExecutor.ExecuteJob`. `getMethods` is the order in which
`Type.GetMethods()` happens to list the public methods of a type. -/
def executeJob (reflection : Reflection CliType ParamType Value)
    (createInstance : CliType → Instance)
    (getMethods : CliType → List (MethodInfo CliType ParamType)) (expr : OddJob CliType Value) :
    Except ClrException (Invocation CliType ParamType Value Instance) := do
  let instance_ :=
    if reflection.isStatic expr.typeExecutedOn then none
    else some (createInstance expr.typeExecutedOn)
  let arguments := expr.jobArgs.map OddJobParameter.value
  if expr.methodGenericTypes.length > 0 then
    let candidates := (getMethods expr.typeExecutedOn).filter
      (Reflection.genericCandidate expr.methodName expr.methodGenericTypes.length
        expr.jobArgs.length)
    match candidates.head? with
    | none => throw .nullReference
    | some method =>
      return { method, genericArguments := expr.methodGenericTypes, instance_, arguments }
  else
    let types ← argumentTypes reflection expr.jobArgs
    match ← reflection.getMethod (getMethods expr.typeExecutedOn) expr.methodName types with
    | none => throw .nullReference
    | some method =>
      -- a generic definition that the lookup finds by its parameters alone cannot be invoked
      if method.genericArity = 0 then
        return { method, genericArguments := [], instance_, arguments }
      else throw .invalidOperation

omit [DecidableEq CliType] [DecidableEq ParamType] in
theorem argumentTypes_eq_ok_iff (reflection : Reflection CliType ParamType Value)
    {jobArgs : List (OddJobParameter Value)} {types : List CliType} :
    argumentTypes reflection jobArgs = .ok types ↔
      ∃ given : List Value, jobArgs.map OddJobParameter.value = given.map some ∧
        types = given.map reflection.getType := by
  induction jobArgs generalizing types with
  | nil =>
    constructor
    · intro found
      obtain rfl : [] = types := by simpa [argumentTypes] using found
      exact ⟨[], rfl, rfl⟩
    · rintro ⟨given, same, rfl⟩
      obtain rfl : given = [] := by simpa using same.symm
      rfl
  | cons argument rest ih =>
    cases value : argument.value with
    | none =>
      constructor
      · intro found
        simp [argumentTypes, value, throw, throwThe, MonadExceptOf.throw] at found
      · rintro ⟨given, same, _⟩
        cases given <;> simp [value] at same
    | some here =>
      constructor
      · intro found
        cases later : argumentTypes reflection rest with
        | error thrown => simp [argumentTypes, value, later, bind, Except.bind] at found
        | ok others =>
          obtain rfl : reflection.getType here :: others = types := by
            simpa [argumentTypes, value, later, bind, Except.bind, pure, Except.pure] using found
          obtain ⟨given, same, rfl⟩ := ih.mp later
          exact ⟨here :: given, by simp [value, same], rfl⟩
      · rintro ⟨given, same, rfl⟩
        cases given with
        | nil => simp at same
        | cons first others =>
          obtain ⟨head, tail⟩ : here = first ∧
              rest.map OddJobParameter.value = others.map some := by
            simpa [value] using same
          subst head
          simp [argumentTypes, value, ih.mpr ⟨others, tail, rfl⟩, bind, Except.bind, pure,
            Except.pure]

section Lookup

variable (reflection : Reflection CliType ParamType Value) (createInstance : CliType → Instance)
  {getMethods : CliType → List (MethodInfo CliType ParamType)} {expr : OddJob CliType Value}

/-- The invocation of a job's method with its arguments. -/
def invocation (expr : OddJob CliType Value) (method : MethodInfo CliType ParamType) :
    Invocation CliType ParamType Value Instance where
  method
  genericArguments := expr.methodGenericTypes
  instance_ :=
    if reflection.isStatic expr.typeExecutedOn then none
    else some (createInstance expr.typeExecutedOn)
  arguments := expr.jobArgs.map OddJobParameter.value

/-- Without generic arguments the method is the one `GetMethod` finds for the runtime types. -/
theorem executeJob_plain (plain : expr.methodGenericTypes = [])
    {method : MethodInfo CliType ParamType} (closed : method.genericArity = 0) :
    executeJob reflection createInstance getMethods expr =
        .ok (invocation reflection createInstance expr method) ↔
      ∃ given : List Value, expr.jobArgs.map OddJobParameter.value = given.map some ∧
        reflection.getMethod (getMethods expr.typeExecutedOn) expr.methodName
          (given.map reflection.getType) = .ok (some method) := by
  have lookup : executeJob reflection createInstance getMethods expr = (do
      let types ← argumentTypes reflection expr.jobArgs
      match ← reflection.getMethod (getMethods expr.typeExecutedOn) expr.methodName types with
      | none => throw .nullReference
      | some found =>
        if found.genericArity = 0 then return invocation reflection createInstance expr found
        else throw .invalidOperation) := by
    simp [executeJob, plain, invocation]
  rw [lookup]
  constructor
  · intro executed
    cases known : argumentTypes reflection expr.jobArgs with
    | error thrown => simp [known, bind, Except.bind] at executed
    | ok types =>
      obtain ⟨given, same, rfl⟩ := (argumentTypes_eq_ok_iff reflection).mp known
      refine ⟨given, same, ?_⟩
      cases found : reflection.getMethod (getMethods expr.typeExecutedOn) expr.methodName
          (given.map reflection.getType) with
      | error thrown => simp [known, found, bind, Except.bind] at executed
      | ok result =>
        cases result with
        | none =>
          simp [known, found, bind, Except.bind, throw, throwThe, MonadExceptOf.throw] at executed
        | some other =>
          by_cases definition : other.genericArity = 0
          · have same : invocation reflection createInstance expr other =
                invocation reflection createInstance expr method := by
              simpa [known, found, definition, bind, Except.bind, pure, Except.pure] using executed
            have equal : other = method := congrArg Invocation.method same
            rw [equal]
          · simp [known, found, definition, bind, Except.bind, throw, throwThe,
              MonadExceptOf.throw] at executed
  · rintro ⟨given, same, found⟩
    have known := (argumentTypes_eq_ok_iff reflection).mpr ⟨given, same, rfl⟩
    simp [known, found, closed, bind, Except.bind, pure, Except.pure]

/-- With generic arguments the method is the first one listed with the right counts. -/
theorem executeJob_generic (generic : expr.methodGenericTypes ≠ [])
    {method : MethodInfo CliType ParamType} :
    executeJob reflection createInstance getMethods expr =
        .ok (invocation reflection createInstance expr method) ↔
      ((getMethods expr.typeExecutedOn).filter (Reflection.genericCandidate expr.methodName
        expr.methodGenericTypes.length expr.jobArgs.length)).head? = some method := by
  have positive : expr.methodGenericTypes.length > 0 := List.length_pos_iff.mpr generic
  simp only [executeJob, positive, ↓reduceIte]
  cases ((getMethods expr.typeExecutedOn).filter (Reflection.genericCandidate expr.methodName
    expr.methodGenericTypes.length expr.jobArgs.length)).head? with
  | none => simp [throw, throwThe, MonadExceptOf.throw]
  | some found =>
    constructor
    · intro executed
      have same : invocation reflection createInstance expr found =
          invocation reflection createInstance expr method := by
        simpa [invocation, pure, Except.pure] using executed
      exact congrArg some (congrArg Invocation.method same)
    · intro same
      obtain rfl : found = method := Option.some.inj same
      simp [invocation, pure, Except.pure]

end Lookup

section Named

variable (reflection : Reflection CliType ParamType Value) (createInstance : CliType → Instance)
  (staticClassJob object t : CliType) (methodCall : MethodCallExpression CliType ParamType Value)

/-- Whatever order reflection lists the methods in, executing the job of an expression
invokes the method the expression names, with the values of its arguments in order. -/
def InvokesNamed (values : List (Option Value)) : Prop :=
  let target := JobCreator.typeExecutedOn staticClassJob object t methodCall
  ∀ getMethods : CliType → List (MethodInfo CliType ParamType),
    (∀ type, (getMethods type).Perm (reflection.publicMethods type)) → ∀ jobId, ∃ job,
      JobCreator.createInternal staticClassJob object t methodCall jobId = .ok job ∧
      executeJob reflection createInstance getMethods job = .ok {
        method := methodCall.method
        genericArguments := methodCall.genericArguments
        instance_ := if reflection.isStatic target then none else some (createInstance target)
        arguments := values }

omit [DecidableEq ParamType] in
private theorem created_invocation (jobId : Guid) {values : List (Option Value)}
    (evaluated : methodCall.arguments.mapM ArgumentExpression.evaluate = .ok values) :
    let target := JobCreator.typeExecutedOn staticClassJob object t methodCall
    ∃ job, JobCreator.createInternal staticClassJob object t methodCall jobId = .ok job ∧
      job.jobArgs.map OddJobParameter.value = values ∧ job.typeExecutedOn = target ∧
      job.methodName = methodCall.method.name ∧
      job.methodGenericTypes = methodCall.genericArguments ∧
      job.jobArgs.length = methodCall.method.parameters.length ∧
      invocation reflection createInstance job methodCall.method = {
        method := methodCall.method
        genericArguments := methodCall.genericArguments
        instance_ := if reflection.isStatic target then none else some (createInstance target)
        arguments := values } := by
  intro target
  obtain ⟨job, created, carried, counted, _, typed, named, generic, _⟩ :=
    JobCreator.createInternal_spec jobId evaluated
  refine ⟨job, created, carried, typed, named, generic, counted, ?_⟩
  simp only [invocation, carried, typed, generic]
  rfl

theorem invokesNamed_plain {values : List (Option Value)}
    (known : methodCall.method ∈ reflection.publicMethods
      (JobCreator.typeExecutedOn staticClassJob object t methodCall))
    (evaluated : methodCall.arguments.mapM ArgumentExpression.evaluate = .ok values)
    (plain : methodCall.genericArguments = []) :
    InvokesNamed reflection createInstance staticClassJob object t methodCall values ↔
      reflection.Unmistakable (JobCreator.typeExecutedOn staticClassJob object t methodCall)
        methodCall values := by
  have created := fun jobId => created_invocation reflection createInstance staticClassJob object t
    methodCall jobId evaluated
  have closed : methodCall.method.genericArity = 0 := by
    rw [← methodCall.closed, plain]
    rfl
  rw [Reflection.Unmistakable, if_pos plain]
  constructor
  · intro invokes
    obtain ⟨job, made, executed⟩ := invokes reflection.publicMethods (fun _ => .refl _) 0
    obtain ⟨other, madeOther, carried, typed, named, generic, _, invoked⟩ := created 0
    obtain rfl : job = other := Except.ok.inj (made.symm.trans madeOther)
    rw [← invoked] at executed
    obtain ⟨given, same, found⟩ := (executeJob_plain reflection createInstance
      (generic.trans plain) closed).mp executed
    rw [typed, named] at found
    obtain ⟨_, _, applies, preferred⟩ := reflection.getMethod_eq_some_iff.mp found
    exact ⟨given, carried.symm.trans same, applies, preferred⟩
  · rintro ⟨given, same, applies, preferred⟩ getMethods lists jobId
    obtain ⟨job, made, carried, typed, named, generic, _, invoked⟩ := created jobId
    refine ⟨job, made, ?_⟩
    rw [← invoked]
    apply (executeJob_plain reflection createInstance (generic.trans plain) closed).mpr
    refine ⟨given, carried.trans same, ?_⟩
    rw [typed, named]
    exact reflection.getMethod_eq_some_iff.mpr ⟨(lists _).mem_iff.mpr known, rfl, applies,
      fun other member => preferred other ((lists _).mem_iff.mp member)⟩

omit [DecidableEq CliType] [DecidableEq ParamType] in
private theorem genericCandidate_iff (generic : methodCall.genericArguments ≠ [])
    (other : MethodInfo CliType ParamType) :
    Reflection.genericCandidate methodCall.method.name methodCall.genericArguments.length
      methodCall.method.parameters.length other = true ↔
    other.name = methodCall.method.name ∧
      other.genericArity = methodCall.method.genericArity ∧
      other.parameters.length = methodCall.method.parameters.length := by
  have arity : methodCall.method.genericArity ≠ 0 := by
    rw [← methodCall.closed]
    exact fun empty => generic (List.eq_nil_of_length_eq_zero empty)
  rw [methodCall.closed]
  simp only [Reflection.genericCandidate, Bool.and_eq_true, decide_eq_true_eq, bne_iff_ne,
    beq_iff_eq]
  constructor
  · rintro ⟨⟨⟨named, _⟩, same⟩, counted⟩
    exact ⟨named, same, counted⟩
  · rintro ⟨named, same, counted⟩
    exact ⟨⟨⟨named, same ▸ arity⟩, same⟩, counted⟩

theorem invokesNamed_generic {values : List (Option Value)}
    (known : methodCall.method ∈ reflection.publicMethods
      (JobCreator.typeExecutedOn staticClassJob object t methodCall))
    (evaluated : methodCall.arguments.mapM ArgumentExpression.evaluate = .ok values)
    (generic : methodCall.genericArguments ≠ []) :
    InvokesNamed reflection createInstance staticClassJob object t methodCall values ↔
      reflection.Unmistakable (JobCreator.typeExecutedOn staticClassJob object t methodCall)
        methodCall values := by
  have created := fun jobId => created_invocation reflection createInstance staticClassJob object t
    methodCall jobId evaluated
  have candidate := genericCandidate_iff methodCall generic
  simp only [InvokesNamed]
  generalize JobCreator.typeExecutedOn staticClassJob object t methodCall = target at *
  rw [Reflection.Unmistakable, if_neg generic]
  constructor
  · intro invokes other member named arity counted
    -- reflection may list the other overload first
    let getMethods := fun type => if type = target then
      other :: (reflection.publicMethods type).erase other else reflection.publicMethods type
    have lists (type : CliType) : (getMethods type).Perm (reflection.publicMethods type) := by
      simp only [getMethods]
      split
      · rename_i same
        subst same
        exact (List.perm_cons_erase member).symm
      · exact .refl _
    obtain ⟨job, made, executed⟩ := invokes getMethods lists 0
    obtain ⟨again, madeAgain, _, typed, name, types, arguments, invoked⟩ := created 0
    obtain rfl : job = again := Except.ok.inj (made.symm.trans madeAgain)
    rw [← invoked] at executed
    have first := (executeJob_generic reflection createInstance
      (by rw [types]; exact generic)).mp executed
    have chosen := (candidate other).mpr ⟨named, arity, counted⟩
    rw [typed, name, types, arguments] at first
    simpa [getMethods, chosen] using first
  · intro only getMethods lists jobId
    obtain ⟨job, made, _, typed, name, types, arguments, invoked⟩ := created jobId
    refine ⟨job, made, ?_⟩
    rw [← invoked]
    apply (executeJob_generic reflection createInstance (by rw [types]; exact generic)).mpr
    rw [typed, name, types, arguments]
    have listed : methodCall.method ∈ (getMethods target).filter
        (Reflection.genericCandidate methodCall.method.name methodCall.genericArguments.length
          methodCall.method.parameters.length) :=
      List.mem_filter.mpr ⟨(lists target).mem_iff.mpr known, (candidate _).mpr ⟨rfl, rfl, rfl⟩⟩
    have alone (other : MethodInfo CliType ParamType) (member : other ∈ (getMethods target).filter
        (Reflection.genericCandidate methodCall.method.name methodCall.genericArguments.length
          methodCall.method.parameters.length)) : other = methodCall.method := by
      obtain ⟨present, accepted⟩ := List.mem_filter.mp member
      obtain ⟨named, arity, counted⟩ := (candidate other).mp accepted
      exact only other ((lists target).mem_iff.mp present) named arity counted
    revert listed alone
    generalize (getMethods target).filter _ = candidates
    intro listed alone
    cases candidates with
    | nil => cases listed
    | cons head tail => rw [alone head List.mem_cons_self, List.head?_cons]

/-- Execution invokes the method an expression names if and only if that method cannot
be mistaken for another overload. -/
theorem executeJob_invokes_named_iff {values : List (Option Value)}
    (known : methodCall.method ∈ reflection.publicMethods
      (JobCreator.typeExecutedOn staticClassJob object t methodCall))
    (evaluated : methodCall.arguments.mapM ArgumentExpression.evaluate = .ok values) :
    InvokesNamed reflection createInstance staticClassJob object t methodCall values ↔
      reflection.Unmistakable (JobCreator.typeExecutedOn staticClassJob object t methodCall)
        methodCall values := by
  by_cases plain : methodCall.genericArguments = []
  · exact invokesNamed_plain reflection createInstance staticClassJob object t methodCall known
      evaluated plain
  · exact invokesNamed_generic reflection createInstance staticClassJob object t methodCall known
      evaluated plain

end Named

inductive SampleType where
  | staticClassJob
  | object
  | string
  | sampleJob
  deriving DecidableEq

def runObject : MethodInfo SampleType SampleType where
  name := "Run"
  declaringType := .sampleJob
  parameters := [("value", .object)]

def runString : MethodInfo SampleType SampleType :=
  { runObject with parameters := [("value", .string)] }

/-- Some parameter of the first method is a string where the second takes an object. -/
def narrower (first second : MethodInfo SampleType SampleType) : Bool :=
  (first.parameters.zip second.parameters).any fun (left, right) =>
    left.2 = .string && right.2 = .object

def sampleReflection : Reflection SampleType SampleType String where
  getType _ := .string
  publicMethods
    | .sampleJob => [runObject, runString]
    | _ => []
  isStatic _ := false
  accepts parameter type := parameter = type || parameter = .object
  better first second _ := narrower first second && !narrower second first
  asymmetric first second _ preferred := by
    simp only [Bool.and_eq_true, Bool.not_eq_true'] at preferred
    simp [preferred]

def sampleCall (method : MethodInfo SampleType SampleType) (value : Option String)
    (closed : 0 = method.genericArity) (complete : 1 = method.parameters.length) :
    MethodCallExpression SampleType SampleType String where
  method
  genericArguments := []
  arguments := [.constant value]
  closed
  complete

/-- A string passed for an object runs the overload for strings, and a null argument
stops the lookup. -/
theorem executeJob_forgets_named_method :
    (∃ job, JobCreator.createInternal .staticClassJob .object .sampleJob
        (sampleCall runObject (some "a") rfl rfl) 0 = .ok job ∧
      executeJob sampleReflection (fun _ => ()) sampleReflection.publicMethods job =
        .ok { method := runString, genericArguments := [], instance_ := some (),
              arguments := [some "a"] }) ∧
    (∃ job, JobCreator.createInternal .staticClassJob .object .sampleJob
        (sampleCall runString none rfl rfl) 0 = .ok job ∧
      executeJob sampleReflection (fun _ => ()) sampleReflection.publicMethods job =
        .error .nullReference) ∧
    ¬ InvokesNamed sampleReflection (fun _ => ()) .staticClassJob .object .sampleJob
      (sampleCall runObject (some "a") rfl rfl) [some "a"] ∧
    ¬ InvokesNamed sampleReflection (fun _ => ()) .staticClassJob .object .sampleJob
      (sampleCall runString none rfl rfl) [none] := by
  refine ⟨⟨_, rfl, by decide⟩, ⟨_, rfl, by decide⟩, fun invokes => ?_, fun invokes => ?_⟩
  · obtain ⟨job, made, executed⟩ := invokes sampleReflection.publicMethods (fun _ => .refl _) 0
    obtain rfl := Except.ok.inj made
    exact absurd executed (by decide)
  · obtain ⟨job, made, executed⟩ := invokes sampleReflection.publicMethods (fun _ => .refl _) 0
    obtain rfl := Except.ok.inj made
    exact absurd executed (by decide)

theorem executeJob_invokes_named_of_string :
    InvokesNamed sampleReflection (fun _ => ()) .staticClassJob .object .sampleJob
      (sampleCall runString (some "a") rfl rfl) [some "a"] := by
  refine (executeJob_invokes_named_iff sampleReflection (fun _ => ()) .staticClassJob .object
    .sampleJob (sampleCall runString (some "a") rfl rfl) (by decide) rfl).mpr ?_
  refine ⟨["a"], rfl, by decide, ?_⟩
  decide

end DefaultJobExecutor

end OddJob
