import OddJob.FileSystem.Document
import OddJob.Lib.TypedJson

/-! The call of a job on its way through the file: from the expression that `AddJob` is given,
through the operations after it, to the job that `GetJob` returns. -/

namespace OddJob.FileSystem

open Linq FileSystemJobMetaData

variable {CliType ParamType Value Text : Type}

/-- The members that say what to execute. No operation assigns them. -/
structure JobCall (CliType Value : Type) where
  jobId : Guid
  typeExecutedOn : CliType
  methodName : String
  methodGenericTypes : List CliType
  jobArgs : List (OddJobParameter Value)

def FileSystemJobMetaData.call (q : FileSystemJobMetaData CliType Value) : JobCall CliType Value where
  jobId := q.jobId
  typeExecutedOn := q.typeExecutedOn
  methodName := q.methodName
  methodGenericTypes := q.methodGenericTypes
  jobArgs := q.jobArgs

/-- The call with its arguments in another form. -/
def JobCall.mapValues (f : Value → Text) (c : JobCall CliType Value) : JobCall CliType Text :=
  { c with jobArgs := mapValue f c.jobArgs }

/-- The call that `AddJob` puts into the queue. -/
def callOf (jobData : OddJob CliType Value) (jobId : Guid) : JobCall CliType Value where
  jobId
  typeExecutedOn := jobData.typeExecutedOn
  methodName := jobData.methodName
  methodGenericTypes := jobData.methodGenericTypes
  jobArgs := jobData.jobArgs

/-- The call of the first job with an id. -/
def firstCall (jobId : Guid) (jobs : List (FileSystemJobMetaData CliType Value)) :
    Option (JobCall CliType Value) :=
  (jobs.map call).find? fun c => c.jobId = jobId

section Stays

variable {operation : Operation CliType Value} {claimed : List Guid} {jobId : Guid}
  {q changed : FileSystemJobMetaData CliType Value}
  {serializer after results : List (FileSystemJobMetaData CliType Value)}

theorem call_touched (touched : operation.Touches claimed q changed) : changed.call = q.call := by
  cases touched with
  | kept => rfl
  | queued member now => rfl
  | @marked _ kind now own done =>
    cases kind with
    | markJobInRetryAndIncrement lastAttempt =>
      simp only [transformFunc] at done
      split at done
      · cases done
      · cases done
        rfl
    | _ =>
      cases done
      rfl

/-- An operation keeps the call of every job, and adds its own at the end. -/
theorem calls_run (done : operation.run serializer = .ok (after, results)) :
    after.map call = serializer.map call ++ operation.addition.map call := by
  obtain ⟨front, rfl, touched⟩ := operation.touches_run done
  have same : front.map call = serializer.map call := by
    rw [← List.forall₂_eq_eq_eq, List.forall₂_map_left_iff, List.forall₂_map_right_iff]
    exact touched.flip.imp fun _ _ => call_touched
  rw [List.map_append, same]

theorem firstCall_map {f : Value → Text} {g : FileSystemJobMetaData CliType Value →
      FileSystemJobMetaData CliType Text} (calls : ∀ q, (g q).call = q.call.mapValues f)
    (jobs : List (FileSystemJobMetaData CliType Value)) :
    firstCall jobId (jobs.map g) = (firstCall jobId jobs).map (JobCall.mapValues f) := by
  have mapped : (jobs.map g).map call = (jobs.map call).map (JobCall.mapValues f) := by
    rw [List.map_map, List.map_map]
    exact List.map_congr_left fun q _ => calls q
  rw [firstCall, mapped, List.find?_map]
  rfl

theorem firstCall_run {c : JobCall CliType Value}
    (done : operation.run serializer = .ok (after, results))
    (first : firstCall jobId serializer = some c) : firstCall jobId after = some c := by
  rw [firstCall] at first ⊢
  rw [calls_run done, List.find?_append, first]
  rfl

end Stays

section Shown

variable {json : Json CliType Value} {write : Value → Text} {read : Text → Value}
  {documents : json.Documents write read} {operation : Operation CliType Value} {jobId : Guid}
  {file after : Option (List UInt8)} {records : List (FileSystemJobMetaData CliType Text)}
  {results : List (FileSystemJobMetaData CliType Value)}

theorem firstCall_restored (jobId : Guid) (records : List (FileSystemJobMetaData CliType Text)) :
    firstCall jobId (records.map (restored read)) =
      (firstCall jobId records).map (JobCall.mapValues read) :=
  firstCall_map (fun _ => rfl) records

theorem firstCall_written (jobId : Guid) (jobs : List (FileSystemJobMetaData CliType Value)) :
    firstCall jobId (jobs.map (mapValues write)) =
      (firstCall jobId jobs).map (JobCall.mapValues write) :=
  firstCall_map (fun _ => rfl) jobs

/-- The first record with the id has this call. -/
def Json.Documents.Keeps (documents : json.Documents write read) (jobId : Guid)
    (c : JobCall CliType Text) (file : Option (List UInt8)) : Prop :=
  ∃ records, documents.Shows file records ∧ firstCall jobId records = some c

/-- The operations one after another, whatever they return or throw. -/
def performAll (json : Json CliType Value) (file : Option (List UInt8))
    (operations : List (Operation CliType Value)) : Option (List UInt8) :=
  operations.foldl (fun file operation => (operation.perform json file).1) file

namespace Json.Documents.Keeps

variable {c : JobCall CliType Text}

/-- A call whose values are written again as they were read stays where it is. -/
theorem perform (keeps : documents.Keeps jobId c file)
    (steady : (c.mapValues read).mapValues write = c) (operation : Operation CliType Value) :
    documents.Keeps jobId c (operation.perform json file).1 := by
  obtain ⟨records, shows, first⟩ := keeps
  have performed := shows.perform operation
  split at performed
  · exact ⟨records, performed.2, first⟩
  · obtain ⟨changed, ran, left⟩ := performed
    refine ⟨_, left, ?_⟩
    split
    · have again : firstCall jobId changed = some (c.mapValues read) := by
        apply firstCall_run ran
        rw [firstCall_restored, first]
        rfl
      rw [firstCall_written, again, Option.map_some, steady]
    · exact first

theorem performAll (keeps : documents.Keeps jobId c file)
    (steady : (c.mapValues read).mapValues write = c)
    (operations : List (Operation CliType Value)) :
    documents.Keeps jobId c (performAll json file operations) := by
  induction operations generalizing file with
  | nil => exact keeps
  | cons operation rest ih => exact ih (keeps.perform steady operation)

/-- `GetJob` returns what is read of the call. -/
theorem getJob (keeps : documents.Keeps jobId c file) (readable : documents.Readable) :
    ∃ job, ((Operation.getJob jobId).perform json file).2 = .ok [job] ∧
      job.call = c.mapValues read := by
  obtain ⟨records, shows, first⟩ := keeps
  obtain ⟨job, found, same⟩ : ∃ job, (records.map (restored read)).find?
      (fun q => q.jobId = jobId) = some job ∧ job.call = c.mapValues read := by
    have restored := @firstCall_restored _ _ _ read jobId records
    rw [first, firstCall, List.find?_map] at restored
    exact Option.map_eq_some_iff.mp restored
  match file with
  | none | some [] =>
    obtain rfl : records = [] := shows
    cases first
  | some (byte :: rest) =>
    obtain ⟨stored, decoded⟩ := readable _ _ shows
    obtain rfl := documents.restores _ _ _ shows decoded
    refine ⟨job, ?_, same⟩
    simp [Operation.perform, Operation.fileMode, Operation.transform, Operation.read, decoded,
      Operation.run, Operation.writes, found, bind, Except.bind, pure, Except.pure]

end Json.Documents.Keeps

theorem Json.Documents.Shows.added (shows : documents.Shows file records)
    {data : FileSystemJobMetaData CliType Value} (fresh : ∀ q ∈ records, q.jobId ≠ data.jobId)
    (added : (Operation.writeJobToQueue data).perform json file = (after, .ok results)) :
    documents.Keeps data.jobId (data.call.mapValues write) after := by
  have performed := shows.perform (.writeJobToQueue data)
  rw [added] at performed
  obtain ⟨changed, ran, left⟩ := performed
  refine ⟨_, left, ?_⟩
  have unknown : ((records.map (restored read)).map call).find?
      (fun c => c.jobId = data.jobId) = none := by
    rw [List.map_map]
    refine List.find?_eq_none.mpr (List.forall_mem_map.mpr fun q member => ?_)
    exact mt of_decide_eq_true (fresh q member)
  have first : firstCall data.jobId changed = some data.call := by
    rw [firstCall, calls_run ran, List.find?_append, unknown]
    simp [Operation.addition, call]
  have writing : (Operation.writeJobToQueue data).writes = true := rfl
  rw [if_pos writing, firstCall_written, first]
  rfl

end Shown

open JobCreator TypedJson

section Calls

variable [DecidableEq CliType] {staticClassJob object t : CliType}

/-- The job is of the call: the same target, method and generic arguments, and in order the
values of the arguments, with their types. -/
structure Calls (staticClassJob object t : CliType)
    (jobExpression : MethodCallExpression CliType ParamType Value)
    (job : FileSystemJobMetaData CliType Value) : Prop where
  typeExecutedOn : job.typeExecutedOn = JobCreator.typeExecutedOn staticClassJob object t jobExpression
  methodName : job.methodName = jobExpression.method.name
  methodGenericTypes : job.methodGenericTypes = jobExpression.genericArguments
  jobArgs : jobExpression.arguments.mapM ArgumentExpression.evaluate =
    .ok (job.jobArgs.map OddJobParameter.value)

variable {primitives : Primitives CliType}
  {json : Json CliType (TypedJson.Value CliType)} {jobId creatorId : Guid} {now : Ticks}
  {jobExpression : MethodCallExpression CliType ParamType (TypedJson.Value CliType)}
  {jobData : OddJob CliType (TypedJson.Value CliType)} {retryParameters : Option RetryParameters}
  {executionTime : Option Ticks} {queueName : String} {file after : Option (List UInt8)}
  {records : List (FileSystemJobMetaData CliType (TypedJson.Text CliType))}
  {results : List (FileSystemJobMetaData CliType (TypedJson.Value CliType))}

private theorem created_spec
    (created : createInternal staticClassJob object t jobExpression creatorId = .ok jobData) :
    jobData.typeExecutedOn = JobCreator.typeExecutedOn staticClassJob object t jobExpression ∧
      jobData.methodName = jobExpression.method.name ∧
      jobData.methodGenericTypes = jobExpression.genericArguments ∧
      jobExpression.arguments.mapM ArgumentExpression.evaluate =
        .ok (jobData.jobArgs.map OddJobParameter.value) := by
  cases evaluated : jobExpression.arguments.mapM ArgumentExpression.evaluate with
  | error thrown =>
    rw [createInternal_error creatorId evaluated] at created
    cases created
  | ok values =>
    obtain ⟨job, made, rfl, _, _, typeExecutedOn, methodName, methodGenericTypes, _⟩ :=
      @createInternal_spec _ _ _ _ staticClassJob object t jobExpression creatorId _ evaluated
    rw [made] at created
    cases created
    exact ⟨typeExecutedOn, methodName, methodGenericTypes, rfl⟩

private theorem survive_iff
    (created : createInternal staticClassJob object t jobExpression creatorId = .ok jobData) :
    (∀ argument ∈ jobExpression.arguments, ∀ value, argument.evaluate = .ok (some value) →
        value.Survives primitives) ↔
      ∀ arg ∈ jobData.jobArgs, ∀ value ∈ arg.value, value.write.read primitives = value := by
  have same := mapM_eq_ok_iff.mp (created_spec created).2.2.2
  constructor
  · intro survive arg member value present
    have listed : Except.ok (some value) ∈
        (jobData.jobArgs.map OddJobParameter.value).map (@Except.ok String _) :=
      List.mem_map_of_mem (List.mem_map.mpr ⟨arg, member, present⟩)
    rw [← same] at listed
    obtain ⟨argument, given, evaluated⟩ := List.mem_map.mp listed
    exact (value.read_write_iff primitives).mpr (survive argument given value evaluated)
  · intro again argument given value evaluated
    have listed : argument.evaluate ∈ jobExpression.arguments.map ArgumentExpression.evaluate :=
      List.mem_map_of_mem given
    rw [same, evaluated, List.map_map] at listed
    obtain ⟨arg, member, present⟩ := List.mem_map.mp listed
    exact (value.read_write_iff primitives).mp (again arg member value (Except.ok.inj present))

/-- `GetJob` finds the call that was added, whatever happens in between, exactly where no
argument is a primitive value of another type than its token suggests, or has such a value
in a member that may hold anything. -/
theorem getJob_calls_iff
    (created : createInternal staticClassJob object t jobExpression creatorId = .ok jobData)
    (documents : json.Documents Tree.write (Tree.read primitives)) (readable : documents.Readable)
    (shows : documents.Shows file records) (fresh : ∀ q ∈ records, q.jobId ≠ jobId)
    (added : (addJob jobData retryParameters executionTime queueName jobId now).perform json file =
      (after, .ok results)) :
    (∀ operations, ∃ job,
      ((Operation.getJob jobId).perform json (performAll json after operations)).2 = .ok [job] ∧
        Calls staticClassJob object t jobExpression job) ↔
      ∀ argument ∈ jobExpression.arguments, ∀ value, argument.evaluate = .ok (some value) →
        value.Survives primitives := by
  have keeps : documents.Keeps jobId ((callOf jobData jobId).mapValues Tree.write) after :=
    shows.added fresh added
  obtain ⟨typeExecutedOn, methodName, methodGenericTypes, evaluated⟩ := created_spec created
  rw [survive_iff created]
  constructor
  · intro found arg member value present
    obtain ⟨job, returned, calls⟩ := found []
    obtain ⟨also, returned', same⟩ := keeps.getJob readable
    obtain rfl : job = also := by
      have once : Except.ok [job] = Except.ok [also] := returned.symm.trans returned'
      simpa using once
    have args : job.jobArgs = mapValue (Tree.read primitives) (mapValue Tree.write jobData.jobArgs) :=
      congrArg JobCall.jobArgs same
    have values := Except.ok.inj (evaluated.symm.trans calls.jobArgs)
    rw [args, mapValue, mapValue, List.map_map, List.map_map, List.map_inj_left] at values
    have again : arg.value = (arg.value.map Tree.write).map (Tree.read primitives) :=
      values arg member
    rw [Option.mem_def.mp present] at again
    exact (Option.some.inj again).symm
  · intro again operations
    have args : mapValue (Tree.read primitives) (mapValue Tree.write jobData.jobArgs) =
        jobData.jobArgs := mapValue_mapValue_iff.mpr again
    have restored : ((callOf jobData jobId).mapValues Tree.write).mapValues
        (Tree.read primitives) = callOf jobData jobId := by
      simp only [JobCall.mapValues, callOf, args]
    obtain ⟨job, returned, same⟩ :=
      (keeps.performAll (congrArg (JobCall.mapValues Tree.write) restored) operations).getJob readable
    rw [restored] at same
    refine ⟨job, returned, ?_, ?_, ?_, ?_⟩
    · exact (congrArg JobCall.typeExecutedOn same).trans typeExecutedOn
    · exact (congrArg JobCall.methodName same).trans methodName
    · exact (congrArg JobCall.methodGenericTypes same).trans methodGenericTypes
    · have given : job.jobArgs = jobData.jobArgs := congrArg JobCall.jobArgs same
      rw [given]
      exact evaluated

end Calls

def samplePrimitives : Primitives String where
  int64 := "System.Int64"
  bigInteger := "System.Numerics.BigInteger"
  double := "System.Double"
  boolean := "System.Boolean"
  string := "System.String"
  dateTime := "System.DateTime"
  nearest text := text
  date _ := none

/-- `j => j.DoThing(5)`, where the parameter has this type. -/
def numberExpression (type : String) :
    MethodCallExpression String String (TypedJson.Value String) where
  method := {
    name := "DoThing"
    declaringType := "Jobs.SampleJob, Jobs"
    parameters := [("number", type)] }
  genericArguments := []
  arguments := [.constant (some (.primitive type (.integer 5)))]
  closed := rfl
  complete := rfl

def numberData (type : String) : OddJob String (TypedJson.Value String) where
  jobId := 1
  jobArgs := [{ name := some "number", value := some (.primitive type (.integer 5)) }]
  typeExecutedOn := "Jobs.SampleJob, Jobs"
  methodName := "DoThing"
  methodGenericTypes := []

def addNumber (type : String) : Operation String (TypedJson.Value String) :=
  addJob (numberData type) none none "default" 7 10

/-- What is written of the job: its number has no type. -/
def numberRecord (status : JobStates) (queueTime : Ticks) :
    FileSystemJobMetaData String (TypedJson.Text String) where
  retryParameters := some {}
  jobId := 7
  jobArgs := [{ name := some "number", value := some (.primitive () (.integer 5)) }]
  typeExecutedOn := "Jobs.SampleJob, Jobs"
  methodName := "DoThing"
  queueName := "default"
  createdOn := 10
  status
  methodGenericTypes := []
  queueTime

/-- The job as it is added, as it is fetched, and as the next operation writes it again. -/
def numberSamples : List (FileSystemJobMetaData String (TypedJson.Text String)) :=
  [numberRecord .new 0, numberRecord (.other "Queued") 20, numberRecord (.other "Queued") 0]

def numberJson : Json String (TypedJson.Value String) :=
  letterJson numberSamples Tree.write (Tree.read samplePrimitives)

def numberDocuments : numberJson.Documents Tree.write (Tree.read samplePrimitives) :=
  letterDocuments numberSamples Tree.write (Tree.read samplePrimitives) (by decide)

theorem getJob_calls_iff_of_int64 : ∃ job,
    ((Operation.getJob 7).perform numberJson (performAll numberJson (some [91, 0])
        [.getJobs ["default"] 5 (fun _ => 20) (fun _ => 20), .mark .markJobSuccess 8 30])).2 =
        .ok [job] ∧
      Calls "StaticClassJob" "System.Object" "Jobs.SampleJob, Jobs"
        (numberExpression "System.Int64") job := by
  have created : createInternal "StaticClassJob" "System.Object" "Jobs.SampleJob, Jobs"
      (numberExpression "System.Int64") 1 = .ok (numberData "System.Int64") := rfl
  have added : (addNumber "System.Int64").perform numberJson none = (some [91, 0], .ok []) := rfl
  have shows : numberDocuments.Shows none [] := rfl
  refine (getJob_calls_iff created numberDocuments (letterDocuments_readable _ _ _) shows
    (fun q member => absurd member List.not_mem_nil) added).mpr ?_ _
  rintro argument given value evaluated
  obtain rfl := List.mem_singleton.mp given
  cases evaluated
  rfl

/-- An `int` comes back as a `long`. -/
theorem int32_not_found : createInternal "StaticClassJob" "System.Object" "Jobs.SampleJob, Jobs"
      (numberExpression "System.Int32") 1 = .ok (numberData "System.Int32") ∧
    (addNumber "System.Int32").perform numberJson none = (some [91, 0], .ok []) ∧
    ¬ ∃ job, ((Operation.getJob 7).perform numberJson (some [91, 0])).2 = .ok [job] ∧
      Calls "StaticClassJob" "System.Object" "Jobs.SampleJob, Jobs"
        (numberExpression "System.Int32") job := by
  refine ⟨rfl, rfl, ?_⟩
  rintro ⟨job, returned, calls⟩
  have long : ((Operation.getJob 7).perform numberJson (some [91, 0])).2.map
      (List.map fun q => q.jobArgs.map OddJobParameter.value) =
        .ok [[some (.primitive "System.Int64" (.integer 5))]] := rfl
  rw [returned] at long
  have int : Except.ok [some (.primitive "System.Int32" (.integer 5))] =
      Except.ok (job.jobArgs.map OddJobParameter.value) := calls.jobArgs
  have value := (Except.ok.inj int).trans (List.cons.inj (Except.ok.inj long)).1
  exact absurd value (by decide)

end OddJob.FileSystem
