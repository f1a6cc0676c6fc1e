import OddJob.Data

/-! `JobCreator`: a job is taken from the call of its expression, with the
arguments evaluated. -/

namespace OddJob

/-- A method definition. The types of its parameters may mention its generic parameters. -/
structure MethodInfo (CliType ParamType : Type) where
  name : String
  declaringType : CliType
  genericArity : Nat := 0
  parameters : List (String × ParamType)
  deriving DecidableEq

/-- An argument of a call in an expression tree. Reading a member and running a
compiled expression may throw. -/
inductive ArgumentExpression (Value : Type) where
  | constant (value : Option Value)
  | member (getMemberValue : Except String (Option Value))
  | other (dynamicInvoke : Except String (Option Value))

/-- The body of a job expression, closed over the generic arguments of its method. -/
structure MethodCallExpression (CliType ParamType Value : Type) where
  method : MethodInfo CliType ParamType
  genericArguments : List CliType
  arguments : List (ArgumentExpression Value)
  closed : genericArguments.length = method.genericArity
  complete : arguments.length = method.parameters.length

/-- The job of a method call, before it is given to a queue. -/
structure OddJob (CliType Value : Type) where
  jobId : Guid
  jobArgs : List (OddJobParameter Value)
  typeExecutedOn : CliType
  methodName : String
  status : JobStates := .new
  methodGenericTypes : List CliType
  deriving DecidableEq

structure JobCreationException where
  message : String
  innerException : String
  deriving DecidableEq, Repr

/-- What the runtime and its libraries throw at the code modelled here. -/
inductive ClrException where
  | nullReference
  | argumentNull
  | ambiguousMatch
  | invalidOperation
  | argument
  | argumentOutOfRange
  | fileNotFound
  /-- a statement that the database refuses -/
  | database
  | jobCreation (exception : JobCreationException)
  | json (message : String)
  deriving DecidableEq, Repr

variable {CliType ParamType Value : Type}

def ArgumentExpression.evaluate : ArgumentExpression Value → Except String (Option Value)
  | .constant value => .ok value
  | .member getMemberValue => getMemberValue
  | .other dynamicInvoke => dynamicInvoke

@[simp] theorem mapError_ok {Thrown Other Result : Type} (wrap : Thrown → Other)
    (result : Result) : (Except.ok result : Except Thrown Result).mapError wrap = .ok result := rfl

@[simp] theorem mapError_error {Thrown Other Result : Type} (wrap : Thrown → Other)
    (thrown : Thrown) :
    (Except.error thrown : Except Thrown Result).mapError wrap = .error (wrap thrown) := rfl

namespace JobCreator

def underivable (inner : String) : JobCreationException where
  message := "Couldn't derive value from job! Please use variables whenever possible and avoid " ++
    "methods that take parameters"
  innerException := inner

/-- The loop over the arguments, with the names that are left. -/
def jobArgsFrom : List String → List (ArgumentExpression Value) →
    Except JobCreationException (List (OddJobParameter Value))
  | _, [] => .ok []
  | paramNames, theArg :: rest => do
    let value ← theArg.evaluate.mapError underivable
    let others ← jobArgsFrom paramNames.tail rest
    return { name := paramNames.head?, value } :: others

/-- The methods of static classes are called on a marker type. -/
def typeExecutedOn [DecidableEq CliType] (staticClassJob object t : CliType)
    (methodCall : MethodCallExpression CliType ParamType Value) : CliType :=
  if t = staticClassJob ∨ t = object then methodCall.method.declaringType else t

/-- `ExpressionBasedJobCreator.CreateInternal<T>`, with the fresh job id as an argument. -/
def createInternal [DecidableEq CliType] (staticClassJob object t : CliType)
    (methodCall : MethodCallExpression CliType ParamType Value) (jobId : Guid) :
    Except JobCreationException (OddJob CliType Value) := do
  let paramNames := methodCall.method.parameters.map Prod.fst
  let jobArgs ← jobArgsFrom paramNames methodCall.arguments
  return {
    jobId
    jobArgs
    typeExecutedOn := typeExecutedOn staticClassJob object t methodCall
    methodName := methodCall.method.name
    methodGenericTypes := methodCall.genericArguments }

theorem jobArgsFrom_values {arguments : List (ArgumentExpression Value)}
    {values : List (Option Value)} (paramNames : List String)
    (evaluated : arguments.mapM ArgumentExpression.evaluate = .ok values) :
    ∃ jobArgs, jobArgsFrom paramNames arguments = .ok jobArgs ∧
      jobArgs.map OddJobParameter.value = values ∧ jobArgs.length = arguments.length ∧
      ∀ a ∈ jobArgs, a.type = none := by
  induction arguments generalizing values paramNames with
  | nil =>
    obtain rfl : [] = values := by simpa [pure, Except.pure] using evaluated
    exact ⟨[], rfl, rfl, rfl, by simp⟩
  | cons theArg rest ih =>
    rw [List.mapM_cons] at evaluated
    cases first : theArg.evaluate with
    | error thrown => simp [first, bind, Except.bind] at evaluated
    | ok value =>
      cases later : rest.mapM ArgumentExpression.evaluate with
      | error thrown => simp [first, later, bind, Except.bind] at evaluated
      | ok others =>
        obtain rfl : value :: others = values := by
          simpa [first, later, bind, Except.bind, pure, Except.pure] using evaluated
        obtain ⟨jobArgs, taken, same, count, untyped⟩ := ih paramNames.tail later
        refine ⟨{ name := paramNames.head?, value } :: jobArgs, ?_, by simp [same], by simp [count],
          List.forall_mem_cons.mpr ⟨rfl, untyped⟩⟩
        simp [jobArgsFrom, first, taken, bind, Except.bind, pure, Except.pure]

/-- An argument that cannot be evaluated stops the creation of the job. -/
theorem jobArgsFrom_error {arguments : List (ArgumentExpression Value)} {thrown : String}
    {paramNames : List String}
    (failed : arguments.mapM ArgumentExpression.evaluate = .error thrown) :
    jobArgsFrom paramNames arguments = .error (underivable thrown) := by
  induction arguments generalizing paramNames with
  | nil => simp [pure, Except.pure] at failed
  | cons theArg rest ih =>
    rw [List.mapM_cons] at failed
    cases first : theArg.evaluate with
    | error inner =>
      obtain rfl : inner = thrown := by simpa [first, bind, Except.bind] using failed
      simp [jobArgsFrom, first, bind, Except.bind]
    | ok value =>
      cases later : rest.mapM ArgumentExpression.evaluate with
      | error inner =>
        obtain rfl : inner = thrown := by simpa [first, later, bind, Except.bind] using failed
        simp [jobArgsFrom, first, bind, Except.bind, ih later]
      | ok others => simp [first, later, bind, Except.bind, pure, Except.pure] at failed

variable [DecidableEq CliType] {staticClassJob object t : CliType}
  {methodCall : MethodCallExpression CliType ParamType Value}

/-- A created job carries the call's names and types, and the values of its arguments. -/
theorem createInternal_spec (jobId : Guid) {values : List (Option Value)}
    (evaluated : methodCall.arguments.mapM ArgumentExpression.evaluate = .ok values) :
    ∃ job, createInternal staticClassJob object t methodCall jobId = .ok job ∧
      job.jobArgs.map OddJobParameter.value = values ∧
      job.jobArgs.length = methodCall.method.parameters.length ∧
      (∀ a ∈ job.jobArgs, a.type = none) ∧
      job.typeExecutedOn = typeExecutedOn staticClassJob object t methodCall ∧
      job.methodName = methodCall.method.name ∧
      job.methodGenericTypes = methodCall.genericArguments ∧ job.jobId = jobId ∧
      job.status = .new := by
  obtain ⟨jobArgs, taken, same, count, untyped⟩ :=
    jobArgsFrom_values (methodCall.method.parameters.map Prod.fst) evaluated
  refine ⟨{
    jobId
    jobArgs
    typeExecutedOn := typeExecutedOn staticClassJob object t methodCall
    methodName := methodCall.method.name
    methodGenericTypes := methodCall.genericArguments }, ?_, same,
    count.trans methodCall.complete, untyped, rfl, rfl, rfl, rfl, rfl⟩
  simp [createInternal, taken, bind, Except.bind, pure, Except.pure]

/-- Where an argument cannot be evaluated, no job is created. -/
theorem createInternal_error (jobId : Guid) {thrown : String}
    (failed : methodCall.arguments.mapM ArgumentExpression.evaluate = .error thrown) :
    createInternal staticClassJob object t methodCall jobId = .error (underivable thrown) := by
  simp [createInternal, jobArgsFrom_error failed, bind, Except.bind]

end JobCreator

end OddJob
