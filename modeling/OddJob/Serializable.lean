import OddJob.Creator
import OddJob.TypeNames

/-! The wire form of a job: arguments as JSON texts with the names of their types. -/

namespace OddJob

variable {CliType ParamType Value : Type}

/-- The types of one platform. `findType` is `Type.GetType` of a name. -/
structure Platform (CliType Value : Type) where
  getType : Value → CliType
  assemblyQualifiedName : CliType → List Char
  /-- `typeof(string).Assembly.FullName` -/
  coreFullName : List Char
  findType : List Char → Option CliType
  named : TargetPlatformHelpers.getCoreAssemblyName coreFullName ≠ []
  /-- every type is loadable, by its name without versions too -/
  loadable : ∀ type, findType (removeVersions (assemblyQualifiedName type)) = some type
  /-- the assembly of the marker does not exist -/
  unmarked : ∀ name type, findType name = some type → ¬ coreLibStart <:+: name

/-- `JsonConvert`, which gives back its own output when it is told the type. -/
structure JsonConvert (platform : Platform CliType Value) where
  serializeObject : Option Value → String
  deserializeObject : String → Option CliType → Except String (Option Value)
  typed : ∀ value, deserializeObject (serializeObject (some value))
    (some (platform.getType value)) = .ok (some value)

namespace Platform

variable (platform : Platform CliType Value)

/-- The type's name mentions the core library once its versions are removed. -/
def MentionsCore (type : CliType) : Prop :=
  TargetPlatformHelpers.getCoreAssemblyName platform.coreFullName <:+:
    removeVersions (platform.assemblyQualifiedName type)

instance (type : CliType) : Decidable (platform.MentionsCore type) :=
  inferInstanceAs (Decidable (_ <:+: _))

/-- `UnversionedTypeSerializer.GetTypeName` -/
def unversionedName (type : Option CliType) : String :=
  String.ofList (getTypeName platform.coreFullName (type.map platform.assemblyQualifiedName))

/-- `NullOnMissingTypeJobTypeResolver.GetTypeForJob`; a null name throws inside its `try`. -/
def getTypeForJob (name : Option String) : Option CliType :=
  name.bind fun name => platform.findType
    (TargetPlatformHelpers.replaceCoreTypes platform.coreFullName name.toList)

/-- The resolver finds every type by the name the serializer gave it. -/
theorem getTypeForJob_unversionedName (type : CliType) :
    platform.getTypeForJob (some (platform.unversionedName (some type))) = some type := by
  have clean := platform.unmarked _ _ (platform.loadable type)
  simp only [getTypeForJob, unversionedName, Option.map_some, Option.bind_some, String.toList_ofList]
  rw [replaceCoreTypes_getTypeName platform.named clean]
  exact platform.loadable type

/-- Without the resolver a name that mentions the core library finds nothing. -/
theorem findType_unversionedName (type : CliType) :
    platform.findType (platform.unversionedName (some type)).toList =
      if platform.MentionsCore type then none else some type := by
  simp only [unversionedName, Option.map_some, String.toList_ofList]
  split
  · rename_i mentions
    have marked := coreLibStart_infix_getTypeName platform.named mentions
    cases found : platform.findType (getTypeName platform.coreFullName
        (some (platform.assemblyQualifiedName type))) with
    | none => rfl
    | some other => exact absurd marked (platform.unmarked _ _ found)
  · rename_i foreign
    rw [getTypeName_of_not_mentioned foreign]
    exact platform.loadable type

end Platform

namespace SerializableJobCreator

variable {platform : Platform CliType Value} (json : JsonConvert platform)

/-- `job.JobArgs.Select((a, i) => new OddJobSerializedParameter() { .. })`, from an
index on. The type name is taken from the value, so a null value throws. -/
def serializedArgsFrom (typeNameSerializer : Option CliType → String) :
    Nat → List (OddJobParameter Value) → Except ClrException (List OddJobSerializedParameter)
  | _, [] => .ok []
  | i, a :: rest => do
    match a.value with
    | none => throw .nullReference
    | some value =>
      let others ← serializedArgsFrom typeNameSerializer (i + 1) rest
      return {
        ordinal := i
        name := a.name
        value := some (json.serializeObject (some value))
        typeName := some (typeNameSerializer (some (platform.getType value))) } :: others

/-- What a caller of `CreateJobDefinition` passes beside the expression. -/
structure Settings (CliType : Type) where
  retryParameters : Option RetryParameters := none
  executionTime : Option Ticks := none
  queueName : String := "default"
  typeNameSerializer : Option CliType → String

/-- `CreateJobDefinition<T>`, with the fresh job id as an argument. -/
def createJobDefinition [DecidableEq CliType] (staticClassJob object t : CliType)
    (jobExpression : MethodCallExpression CliType ParamType Value) (settings : Settings CliType)
    (jobId : Guid) : Except ClrException SerializableOddJob := do
  let job ← (JobCreator.createInternal staticClassJob object t jobExpression jobId).mapError
    .jobCreation
  let jobArgs ← serializedArgsFrom json settings.typeNameSerializer 0 job.jobArgs
  return {
    jobId := job.jobId
    methodName := job.methodName
    jobArgs
    typeExecutedOn := settings.typeNameSerializer (some job.typeExecutedOn)
    status := job.status
    methodGenericTypes :=
      job.methodGenericTypes.map fun q => some (settings.typeNameSerializer (some q))
    retryParameters := some (settings.retryParameters.getD {})
    executionTime := settings.executionTime
    queueName := settings.queueName }

/-- One argument of `GetExecutableJobDefinition`, which looks its type up without the resolver. -/
def executableArg (q : OddJobSerializedParameter) :
    Except ClrException (OddJobParameter Value) :=
  match q.typeName, q.value with
  | some typeName, some text => do
    let value ← (json.deserializeObject text (platform.findType typeName.toList)).mapError .json
    return { name := q.name, value }
  | _, _ => throw .argumentNull

/-- `GetExecutableJobDefinition` with its default resolver. -/
def getExecutableJobDefinition (jobData : SerializableOddJob) :
    Except ClrException (OddJobWithMetaData CliType Value) := do
  let jobArgs ← jobData.jobArgs.mapM (executableArg json)
  return {
    executionTime := jobData.executionTime
    jobArgs
    jobId := jobData.jobId
    methodGenericTypes := jobData.methodGenericTypes.map platform.getTypeForJob
    methodName := jobData.methodName
    queue := jobData.queueName
    retryParameters := jobData.retryParameters
    status := jobData.status
    typeExecutedOn := platform.getTypeForJob (some jobData.typeExecutedOn) }

theorem createJobDefinition_eq_ok_iff [DecidableEq CliType] {staticClassJob object t : CliType}
    {jobExpression : MethodCallExpression CliType ParamType Value} {settings : Settings CliType}
    {jobId : Guid} {jobData : SerializableOddJob} :
    createJobDefinition json staticClassJob object t jobExpression settings jobId = .ok jobData ↔
      ∃ job jobArgs,
        JobCreator.createInternal staticClassJob object t jobExpression jobId = .ok job ∧
        serializedArgsFrom json settings.typeNameSerializer 0 job.jobArgs = .ok jobArgs ∧
        jobData = {
          jobId := job.jobId
          methodName := job.methodName
          jobArgs
          typeExecutedOn := settings.typeNameSerializer (some job.typeExecutedOn)
          status := job.status
          methodGenericTypes :=
            job.methodGenericTypes.map fun q => some (settings.typeNameSerializer (some q))
          retryParameters := some (settings.retryParameters.getD {})
          executionTime := settings.executionTime
          queueName := settings.queueName } := by
  unfold createJobDefinition
  cases JobCreator.createInternal staticClassJob object t jobExpression jobId with
  | error thrown => simp [bind, Except.bind]
  | ok job =>
    cases wire : serializedArgsFrom json settings.typeNameSerializer 0 job.jobArgs with
    | error thrown => simp [bind, Except.bind, wire]
    | ok jobArgs =>
      simp [bind, Except.bind, wire, pure, Except.pure, eq_comm]

theorem getExecutableJobDefinition_eq_ok_iff {jobData : SerializableOddJob}
    {job : OddJobWithMetaData CliType Value} :
    getExecutableJobDefinition json jobData = .ok job ↔
      ∃ jobArgs, jobData.jobArgs.mapM (executableArg json) = .ok jobArgs ∧ job = {
        executionTime := jobData.executionTime
        jobArgs
        jobId := jobData.jobId
        methodGenericTypes := jobData.methodGenericTypes.map platform.getTypeForJob
        methodName := jobData.methodName
        queue := jobData.queueName
        retryParameters := jobData.retryParameters
        status := jobData.status
        typeExecutedOn := platform.getTypeForJob (some jobData.typeExecutedOn) } := by
  unfold getExecutableJobDefinition
  cases jobData.jobArgs.mapM (executableArg json) with
  | error thrown => simp [bind, Except.bind]
  | ok jobArgs => simp [bind, Except.bind, pure, Except.pure, eq_comm]

/-- The wire form of the argument with this value and index. -/
def wireArg (typeNameSerializer : Option CliType → String)
    (entry : (OddJobParameter Value × Value) × Nat) : OddJobSerializedParameter where
  ordinal := entry.2
  name := entry.1.1.name
  value := some (json.serializeObject (some entry.1.2))
  typeName := some (typeNameSerializer (some (platform.getType entry.1.2)))

/-- Serialization succeeds exactly when no value is null, and numbers the arguments. -/
theorem serializedArgsFrom_eq_ok_iff {typeNameSerializer : Option CliType → String} {i : Nat}
    {args : List (OddJobParameter Value)} {out : List OddJobSerializedParameter} :
    serializedArgsFrom json typeNameSerializer i args = .ok out ↔
      ∃ given : List Value, args.map OddJobParameter.value = given.map some ∧
        out = ((args.zip given).zipIdx i).map (wireArg json typeNameSerializer) := by
  induction args generalizing i out with
  | nil =>
    constructor
    · intro done
      obtain rfl : [] = out := by simpa [serializedArgsFrom] using done
      exact ⟨[], rfl, rfl⟩
    · rintro ⟨given, _, rfl⟩
      rfl
  | cons a rest ih =>
    cases value : a.value with
    | none =>
      constructor
      · intro done
        simp [serializedArgsFrom, value, throw, throwThe, MonadExceptOf.throw] at done
      · rintro ⟨given, same, _⟩
        cases given <;> simp [value] at same
    | some here =>
      constructor
      · intro done
        cases later : serializedArgsFrom json typeNameSerializer (i + 1) rest with
        | error thrown => simp [serializedArgsFrom, value, later, bind, Except.bind] at done
        | ok others =>
          obtain ⟨given, same, rfl⟩ := ih.mp later
          refine ⟨here :: given, by simp [value, same], ?_⟩
          simpa [serializedArgsFrom, value, later, bind, Except.bind, pure, Except.pure, wireArg,
            eq_comm] using done
      · rintro ⟨given, same, rfl⟩
        cases given with
        | nil => simp at same
        | cons first others =>
          obtain ⟨head, tail⟩ : here = first ∧
              rest.map OddJobParameter.value = others.map some := by
            simpa [value] using same
          subst head
          simp [serializedArgsFrom, value, ih.mpr ⟨others, tail, rfl⟩, bind, Except.bind, pure,
            Except.pure, wireArg]

/-- The value is given back although its type may not be found. -/
def Survives (value : Value) : Prop :=
  platform.MentionsCore (platform.getType value) →
    json.deserializeObject (json.serializeObject (some value)) none = .ok (some value)

theorem executableArg_wireArg (a : OddJobParameter Value) (value : Value) (i : Nat) :
    executableArg json (wireArg json platform.unversionedName ((a, value), i)) =
        .ok { name := a.name, value := some value } ↔ Survives json value := by
  have lookup : executableArg json (wireArg json platform.unversionedName ((a, value), i)) =
      ((json.deserializeObject (json.serializeObject (some value))
        (if platform.MentionsCore (platform.getType value) then none
          else some (platform.getType value))).mapError .json).bind
        fun value => .ok { name := a.name, value } := by
    rw [← platform.findType_unversionedName]
    rfl
  rw [lookup]
  by_cases mentions : platform.MentionsCore (platform.getType value)
  · simp only [mentions, ↓reduceIte, Survives, true_implies]
    cases json.deserializeObject (json.serializeObject (some value)) none with
    | error thrown => simp [Except.mapError, Except.bind]
    | ok other => simp [Except.mapError, Except.bind]
  · simp only [mentions, ↓reduceIte, Survives, false_implies, iff_true, json.typed]
    rfl

/-- The arguments come back in order exactly when each value survives. -/
theorem executableArgs_iff {args : List (OddJobParameter Value)} {given : List Value} (i : Nat)
    (untyped : ∀ a ∈ args, a.type = none)
    (carried : args.map OddJobParameter.value = given.map some) :
    (((args.zip given).zipIdx i).map (wireArg json platform.unversionedName)).mapM
        (executableArg json) = .ok args ↔ ∀ value ∈ given, Survives json value := by
  induction args generalizing given i with
  | nil =>
    obtain rfl : given = [] := by simpa using carried.symm
    simp [pure, Except.pure]
  | cons a rest ih =>
    cases given with
    | nil => simp at carried
    | cons value others =>
      obtain ⟨here, later⟩ : a.value = some value ∧
          rest.map OddJobParameter.value = others.map some := by simpa using carried
      have same : a = { name := a.name, value := some value } := by
        have plain := untyped a List.mem_cons_self
        cases a
        simp_all
      have one := executableArg_wireArg json a value i
      have more := ih (i + 1) (fun other member => untyped other (List.mem_cons_of_mem _ member))
        later
      rw [← same] at one
      simp only [List.zip_cons_cons, List.zipIdx_cons, List.map_cons, List.mapM_cons,
        List.forall_mem_cons, ← one, ← more]
      cases executableArg json (wireArg json platform.unversionedName ((a, value), i)) with
      | error thrown => simp [bind, Except.bind]
      | ok first =>
        cases (((rest.zip others).zipIdx (i + 1)).map
            (wireArg json platform.unversionedName)).mapM (executableArg json) with
        | error thrown => simp [bind, Except.bind]
        | ok tail => simp [bind, Except.bind, pure, Except.pure]

section Trip

variable [DecidableEq CliType] (staticClassJob object t : CliType)
  (jobExpression : MethodCallExpression CliType ParamType Value)

/-- The job of an expression is written and read back with the same method, types and
arguments, whatever the retry parameters, the schedule and the queue. -/
def RoundTrips : Prop :=
  ∀ retryParameters executionTime queueName jobId, ∃ created jobData job,
    JobCreator.createInternal staticClassJob object t jobExpression jobId = .ok created ∧
    createJobDefinition json staticClassJob object t jobExpression
      ⟨retryParameters, executionTime, queueName, platform.unversionedName⟩ jobId = .ok jobData ∧
    getExecutableJobDefinition json jobData = .ok job ∧
    job.methodName = created.methodName ∧ job.typeExecutedOn = some created.typeExecutedOn ∧
    job.methodGenericTypes = created.methodGenericTypes.map some ∧ job.jobArgs = created.jobArgs

/-- A job survives the wire exactly when no argument is null and every argument whose type
name mentions the core library is one that an untyped read gives back. -/
theorem roundTrips_iff {values : List (Option Value)}
    (evaluated : jobExpression.arguments.mapM ArgumentExpression.evaluate = .ok values) :
    RoundTrips json staticClassJob object t jobExpression ↔
      ∃ given : List Value, values = given.map some ∧ ∀ value ∈ given, Survives json value := by
  constructor
  · intro trips
    obtain ⟨created, jobData, job, creation, written, read, _, _, _, same⟩ :=
      trips none none "default" 0
    obtain ⟨again, repeated, carried, _, untyped, _⟩ := JobCreator.createInternal_spec 0 evaluated
    obtain rfl : created = again := Except.ok.inj (creation.symm.trans repeated)
    obtain ⟨source, wire, sourceCreation, wired, rfl⟩ :=
      (createJobDefinition_eq_ok_iff json).mp written
    obtain rfl : created = source := Except.ok.inj (creation.symm.trans sourceCreation)
    obtain ⟨jobArgs, decoded, rfl⟩ := (getExecutableJobDefinition_eq_ok_iff json).mp read
    obtain rfl : jobArgs = created.jobArgs := same
    obtain ⟨given, some_given, rfl⟩ := (serializedArgsFrom_eq_ok_iff json).mp wired
    exact ⟨given, carried.symm.trans some_given,
      (executableArgs_iff json 0 untyped some_given).mp decoded⟩
  · rintro ⟨given, rfl, survive⟩ retryParameters executionTime queueName jobId
    obtain ⟨created, creation, carried, _, untyped, _⟩ :=
      JobCreator.createInternal_spec jobId evaluated
    have wired : serializedArgsFrom json platform.unversionedName 0 created.jobArgs = .ok _ :=
      (serializedArgsFrom_eq_ok_iff json).mpr ⟨given, carried, rfl⟩
    have decoded := (executableArgs_iff json 0 untyped carried).mpr survive
    refine ⟨created, _, _, creation,
      (createJobDefinition_eq_ok_iff json).mpr ⟨created, _, creation, wired, rfl⟩,
      (getExecutableJobDefinition_eq_ok_iff json).mpr ⟨_, decoded, rfl⟩, rfl,
      platform.getTypeForJob_unversionedName _, ?_, rfl⟩
    simp [Function.comp_def, platform.getTypeForJob_unversionedName]

end Trip

inductive SampleClr where
  | object
  | int32
  | int64
  | staticClassJob
  | sampleJob
  deriving DecidableEq

def SampleClr.name : SampleClr → List Char
  | .object => "System.Object, mscorlib".toList
  | .staticClassJob => "GlutenFree.OddJob.StaticClassJob, GlutenFree.OddJob".toList
  | .int32 => "System.Int32, mscorlib".toList
  | .int64 => "System.Int64, mscorlib".toList
  | .sampleJob => "Jobs.SampleJob, Jobs".toList

/-- The number five, as either integer type. -/
inductive SampleFive where
  | int32
  | int64
  deriving DecidableEq

def sampleVersions : List Char :=
  ", Version=4.0.0.0, Culture=neutral, PublicKeyToken=b77a5c561934e089".toList

def samplePlatform : Platform SampleClr SampleFive where
  getType
    | .int32 => .int32
    | .int64 => .int64
  assemblyQualifiedName type := type.name ++ sampleVersions
  coreFullName := "mscorlib".toList ++ sampleVersions
  findType name :=
    [SampleClr.object, .int32, .int64, .staticClassJob, .sampleJob].find? fun type =>
      type.name = name
  named := by decide
  loadable := by
    intro type
    cases type <;> decide
  unmarked := by
    intro name type found
    have same : type.name = name := by simpa using List.find?_some found
    subst same
    cases type <;> decide

/-- Integers are written without their type, and read as `Int64` unless told otherwise. -/
def sampleJson : JsonConvert samplePlatform where
  serializeObject
    | some _ => "5"
    | none => "null"
  deserializeObject
    | "5", some .int32 => .ok (some .int32)
    | "5", some .int64 => .ok (some .int64)
    | "5", none => .ok (some .int64)
    | "null", _ => .ok none
    | _, _ => .error "unexpected"
  typed value := by cases value <;> rfl

def sampleExpression (value : Option SampleFive) :
    MethodCallExpression SampleClr SampleClr SampleFive where
  method := { name := "Add", declaringType := .sampleJob, parameters := [("count", .int32)] }
  genericArguments := []
  arguments := [.constant value]
  closed := rfl
  complete := rfl

/-- An `Int32` comes back as an `Int64`, and a null argument is not written at all. -/
theorem int32_and_null_do_not_roundTrip :
    (∃ jobData job, createJobDefinition sampleJson .staticClassJob .object .sampleJob
        (sampleExpression (some .int32)) ⟨none, none, "default", samplePlatform.unversionedName⟩ 0 =
        .ok jobData ∧
      getExecutableJobDefinition sampleJson jobData = .ok job ∧
      job.jobArgs.map OddJobParameter.value = [some .int64]) ∧
    createJobDefinition sampleJson .staticClassJob .object .sampleJob (sampleExpression none)
      ⟨none, none, "default", samplePlatform.unversionedName⟩ 0 = .error .nullReference ∧
    ¬ RoundTrips sampleJson .staticClassJob .object .sampleJob (sampleExpression (some .int32)) ∧
    ¬ RoundTrips sampleJson .staticClassJob .object .sampleJob (sampleExpression none) := by
  refine ⟨⟨_, _, rfl, rfl, rfl⟩, rfl, fun trips => ?_, fun trips => ?_⟩
  · obtain ⟨created, jobData, job, creation, written, read, _, _, _, same⟩ :=
      trips none none "default" 0
    obtain rfl := Except.ok.inj creation
    obtain rfl := Except.ok.inj written
    obtain rfl := Except.ok.inj read
    cases same
  · obtain ⟨created, jobData, job, creation, written, _⟩ := trips none none "default" 0
    cases written

theorem roundTrips_of_int64 :
    RoundTrips sampleJson .staticClassJob .object .sampleJob (sampleExpression (some .int64)) :=
  (roundTrips_iff sampleJson .staticClassJob .object .sampleJob (sampleExpression (some .int64))
    rfl).mpr ⟨[.int64], rfl, fun value member _ => by
      obtain rfl := List.mem_singleton.mp member
      rfl⟩

end SerializableJobCreator

end OddJob
