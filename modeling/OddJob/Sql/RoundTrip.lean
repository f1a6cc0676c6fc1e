import OddJob.Serializable
import OddJob.Sql.Rebuild

/-! A job that was added and is read back by its id. -/

namespace OddJob.Sql

open Linq

variable {CliType ParamType Value : Type}

namespace Decoder

variable (decoder : Decoder CliType Value)

/-- A parameter of the wire form, with its type and value decoded. -/
def arg (a : OddJobSerializedParameter) : Except ClrException (OddJobParameter Value) := do
  let type ← decoder.getTypeForJob a.typeName
  let value ← decoder.deserializeObject a.value type
  return {
    name := a.name
    value
    type := a.typeName.map fun name => String.ofList
      (TargetPlatformHelpers.replaceCoreTypes decoder.coreFullName name.toList) }

/-- The decoded job of a wire form. -/
def decode (jobData : SerializableOddJob) : Except ClrException (SqlDbOddJob CliType Value) := do
  let typeExecutedOn ← decoder.getTypeForJob (some jobData.typeExecutedOn)
  let jobArgs ← jobData.jobArgs.mapM decoder.arg
  let methodGenericTypes ← jobData.methodGenericTypes.mapM decoder.getTypeForJob
  return {
    jobId := jobData.jobId
    methodName := jobData.methodName
    typeExecutedOn
    status := jobData.status
    executionTime := jobData.executionTime
    queue := jobData.queueName
    jobArgs
    retryParameters := jobData.retryParameters.getD {}
    methodGenericTypes }

theorem decode_eq_ok_iff {jobData : SerializableOddJob} {job : SqlDbOddJob CliType Value} :
    decoder.decode jobData = .ok job ↔ ∃ typeExecutedOn jobArgs methodGenericTypes,
      decoder.getTypeForJob (some jobData.typeExecutedOn) = .ok typeExecutedOn ∧
      jobData.jobArgs.mapM decoder.arg = .ok jobArgs ∧
      jobData.methodGenericTypes.mapM decoder.getTypeForJob = .ok methodGenericTypes ∧
      job = {
        jobId := jobData.jobId
        methodName := jobData.methodName
        typeExecutedOn
        status := jobData.status
        executionTime := jobData.executionTime
        queue := jobData.queueName
        jobArgs
        retryParameters := jobData.retryParameters.getD {}
        methodGenericTypes } := by
  unfold decode
  cases decoder.getTypeForJob (some jobData.typeExecutedOn) with
  | error thrown => simp [bind, Except.bind]
  | ok typeExecutedOn =>
    cases jobData.jobArgs.mapM decoder.arg with
    | error thrown => simp [bind, Except.bind]
    | ok jobArgs =>
      cases jobData.methodGenericTypes.mapM decoder.getTypeForJob with
      | error thrown => simp [bind, Except.bind]
      | ok methodGenericTypes => simp [bind, Except.bind, pure, Except.pure, eq_comm]

/-- The two read pipelines agree: the second decodes what the first returns. -/
theorem ofGroup_eq_decode (jobGuid : Guid) (first : SqlQueueRowSet) (group : List SqlQueueRowSet) :
    decoder.ofGroup jobGuid first group =
      decoder.decode (serializableOfGroup jobGuid first group) := by
  have args : (orderedParams group).mapM decoder.param =
      ((orderedParams group).map serializedParameter).mapM decoder.arg := by
    rw [List.mapM_map]
    rfl
  have generics : ((orderedGenerics group).mapM fun t => decoder.getTypeForJob t.paramTypeName) =
      ((orderedGenerics group).map SqlDbOddJobMethodGenericInfo.paramTypeName).mapM
        decoder.getTypeForJob := by
    rw [List.mapM_map]
    rfl
  rw [ofGroup, args, generics]
  rfl

/-- The decoded job has the id and the retry parameters of its rows. -/
theorem ofGroup_ok {jobGuid : Guid} {first : SqlQueueRowSet} {group : List SqlQueueRowSet}
    {job : SqlDbOddJob CliType Value} (decoded : decoder.ofGroup jobGuid first group = .ok job) :
    job.jobId = jobGuid ∧ job.retryParameters = retryParametersOf first.metaData := by
  rw [ofGroup_eq_decode, decode_eq_ok_iff] at decoded
  obtain ⟨_, _, _, _, _, _, rfl⟩ := decoded
  exact ⟨rfl, rfl⟩

theorem fetchedIds_eq {rows : List SqlQueueRowSet} {jobs : List (SqlDbOddJob CliType Value)}
    (fetched : toList (executeJoinQuery decoder rows) = .ok jobs) :
    jobs.map SqlDbOddJob.jobId = (decodings decoder rows).map Prod.fst := by
  rw [executeJoinQuery_eq, toList_eq_ok_iff] at fetched
  have named : ∀ entry ∈ decodings decoder rows, ∀ job, entry.2 = .ok job → job.jobId = entry.1 := by
    intro entry member job same
    obtain ⟨⟨jobGuid, group⟩, _, found⟩ := List.mem_filterMap.mp member
    obtain ⟨first, _, rfl⟩ := Option.map_eq_some_iff.mp found
    exact (decoder.ofGroup_ok same).1
  generalize decodings decoder rows = entries at fetched named
  induction entries generalizing jobs with
  | nil => rw [List.map_eq_nil_iff.mp fetched.symm, List.map_nil, List.map_nil]
  | cons entry rest ih =>
    cases jobs with
    | nil => cases fetched
    | cons job others =>
      obtain ⟨head, later⟩ := List.cons.inj fetched
      rw [List.map_cons, List.map_cons, named entry List.mem_cons_self job head,
        ih later fun entry member => named entry (List.mem_cons_of_mem _ member)]

theorem fetchedIds_nodup {rows : List SqlQueueRowSet} {jobs : List (SqlDbOddJob CliType Value)}
    (fetched : toList (executeJoinQuery decoder rows) = .ok jobs) :
    (jobs.map SqlDbOddJob.jobId).Nodup := by
  rw [decoder.fetchedIds_eq fetched, decodings_keys]
  exact distinct_nodup _

end Decoder

/-- What `CreateJobDefinition` promises of the jobs it makes. -/
structure Numbered (jobData : SerializableOddJob) : Prop where
  ordinals : jobData.jobArgs.Pairwise fun first second => first.ordinal < second.ordinal
  typed : ∀ arg ∈ jobData.jobArgs, arg.typeName.isSome = true
  named : ∀ type ∈ jobData.methodGenericTypes, type.isSome = true
  retries : jobData.retryParameters.isSome = true
  status : jobData.status = .new

theorem numbered_of_createJobDefinition [DecidableEq CliType] {platform : Platform CliType Value}
    {json : JsonConvert platform} {staticClassJob object t : CliType}
    {jobExpression : MethodCallExpression CliType ParamType Value}
    {settings : SerializableJobCreator.Settings CliType} {jobId : Guid}
    {jobData : SerializableOddJob}
    (made : SerializableJobCreator.createJobDefinition json staticClassJob object t jobExpression
      settings jobId = .ok jobData) : Numbered jobData := by
  obtain ⟨job, jobArgs, created, written, rfl⟩ :=
    (SerializableJobCreator.createJobDefinition_eq_ok_iff json).mp made
  obtain ⟨given, _, rfl⟩ := (SerializableJobCreator.serializedArgsFrom_eq_ok_iff json).mp written
  have status : job.status = .new := by
    cases args : JobCreator.jobArgsFrom (jobExpression.method.parameters.map Prod.fst)
        jobExpression.arguments with
    | error thrown => simp [JobCreator.createInternal, args, bind, Except.bind] at created
    | ok found =>
      simp only [JobCreator.createInternal, args, bind, Except.bind, pure, Except.pure,
        Except.ok.injEq] at created
      rw [← created]
  constructor
  · apply List.pairwise_map.mpr
    have indices : (((job.jobArgs.zip given).zipIdx).map Prod.snd).Pairwise (· < ·) := by
      rw [List.zipIdx_map_snd]
      exact List.pairwise_lt_range'
    exact (List.pairwise_map.mp indices).imp fun below => Int.ofNat_lt.mpr below
  · intro arg member
    obtain ⟨entry, _, rfl⟩ := List.mem_map.mp member
    rfl
  · intro type member
    obtain ⟨q, _, rfl⟩ := List.mem_map.mp member
    rfl
  · rfl
  · exact status

def publishedRow (jobData : SerializableOddJob) (id : Int) (now : Ticks) :
    SqlCommonDbOddJobMetaData :=
  { getMetaDataForJob jobData id now with status := .new }

/-- No table has a row of the job. -/
structure Unknown (tables : Tables) (jobId : Guid) : Prop where
  queue : ∀ row ∈ tables.queue, row.jobGuid ≠ jobId
  params : ∀ param ∈ tables.params, param.jobGuid ≠ jobId
  generics : ∀ generic ∈ tables.generics, generic.jobGuid ≠ jobId

variable {tables : Tables} {jobData : SerializableOddJob} {now : Ticks}

theorem queue_addJob (tables : Tables) (jobData : SerializableOddJob) (now : Ticks) :
    (tables.addJob jobData now).queue =
      updateWhere (fun q => decide (q.id = tables.nextId)) (fun q => { q with status := .new })
        tables.queue ++ [publishedRow jobData tables.nextId now] := by
  have last : (getMetaDataForJob jobData tables.nextId now).id = tables.nextId := rfl
  simp only [Tables.addJob, Tables.publish, Tables.insertMetaData, Tables.copyGenerics_queue,
    Tables.copyParams_queue, updateWhere, List.map_append, List.map_cons, List.map_nil, last,
    decide_true, if_true]
  rfl

theorem selected_addJob (fresh : Unknown tables jobData.jobId) :
    (tables.addJob jobData now).queue.filter (fun q => q.jobGuid = jobData.jobId) =
      [publishedRow jobData tables.nextId now] := by
  have older : (updateWhere (fun q => decide (q.id = tables.nextId))
      (fun q : SqlCommonDbOddJobMetaData => { q with status := .new }) tables.queue).filter
        (fun q => q.jobGuid = jobData.jobId) = [] := by
    apply List.filter_eq_nil_iff.mpr
    intro row member
    obtain ⟨old, present, rfl⟩ := mem_updateWhere.mp member
    have different := fresh.queue old present
    split <;> simpa using different
  rw [queue_addJob, List.filter_append, older]
  simp [publishedRow, getMetaDataForJob]

theorem stored_addJob (fresh : Unknown tables jobData.jobId) :
    Stored (tables.addJob jobData now) jobData := by
  constructor
  · intro param
    have owned : param ∈ getParamDataForJob jobData → param.jobGuid = jobData.jobId := by
      intro member
      obtain ⟨q, _, rfl⟩ := List.mem_map.mp member
      rfl
    have split : (tables.addJob jobData now).params =
        tables.params ++ getParamDataForJob jobData := by
      simp [Tables.addJob, Tables.publish, Tables.insertMetaData]
    rw [split, List.mem_append]
    constructor
    · rintro ⟨older | newer, same⟩
      · exact absurd same (fresh.params param older)
      · exact newer
    · exact fun member => ⟨.inr member, owned member⟩
  · intro generic
    have owned : generic ∈ getGenericDataForJob jobData → generic.jobGuid = jobData.jobId := by
      intro member
      obtain ⟨q, _, rfl⟩ := List.mem_map.mp member
      rfl
    have split : (tables.addJob jobData now).generics =
        tables.generics ++ getGenericDataForJob jobData := by
      simp [Tables.addJob, Tables.publish, Tables.insertMetaData]
    rw [split, List.mem_append]
    constructor
    · rintro ⟨older | newer, same⟩
      · exact absurd same (fresh.generics generic older)
      · exact newer
    · exact fun member => ⟨.inr member, owned member⟩

theorem groupBy_of_one {job : SqlCommonDbOddJobMetaData} {rows : List SqlQueueRowSet}
    (order : rows.Perm (joinQuery [job] tables)) :
    groupBy (fun q => q.metaData.jobGuid) rows = [(job.jobGuid, rows)] ∧
      ∃ first, rows.head? = some first ∧ first.metaData = job := by
  have known (row : SqlQueueRowSet) (member : row ∈ rows) : row.metaData = job :=
    List.mem_singleton.mp (mem_joinQuery.mp (order.mem_iff.mp member)).1
  have present : rows ≠ [] := by
    obtain ⟨row, member, _⟩ := exists_mem_joinQuery tables (List.mem_singleton.mpr rfl : job ∈ [job])
    exact List.ne_nil_of_mem (order.mem_iff.mpr member)
  refine ⟨groupBy_of_constant (fun row member => congrArg _ (known row member)) present, ?_⟩
  cases rows with
  | nil => exact absurd rfl present
  | cons first rest => exact ⟨first, rfl, known first List.mem_cons_self⟩

theorem Stored.serializableOfGroup_eq {job : SqlCommonDbOddJobMetaData}
    {group : List SqlQueueRowSet} {first : SqlQueueRowSet} (stored : Stored tables jobData)
    (valid : GroupOf tables job group) (same : job.jobGuid = jobData.jobId)
    (numbered : Numbered jobData) (head : first.metaData = job) :
    serializableOfGroup jobData.jobId first group = {
      jobId := jobData.jobId
      jobArgs := jobData.jobArgs
      typeExecutedOn := job.typeExecutedOn
      methodName := job.methodName
      status := job.status
      methodGenericTypes := jobData.methodGenericTypes
      retryParameters := some (retryParametersOf job)
      executionTime := job.doNotExecuteBefore
      queueName := job.queueName } := by
  have carries := stored.carries valid same
  have distinct : (jobData.jobArgs.map OddJobSerializedParameter.ordinal).Nodup :=
    List.pairwise_map.mpr (numbered.ordinals.imp fun below => ne_of_lt below)
  have args : (orderedParams group).map serializedParameter = jobData.jobArgs := by
    apply increasing_unique carries.increasing numbered.ordinals
    intro arg
    constructor
    · exact fun member => (carries.genuine arg member).1
    · intro member
      obtain ⟨kept, present, ordinal⟩ := carries.complete arg member (numbered.typed arg member)
      obtain rfl : kept = arg :=
        List.inj_on_of_nodup_map distinct (carries.genuine kept present).1 member ordinal
      exact present
  have generics : (orderedGenerics group).map SqlDbOddJobMethodGenericInfo.paramTypeName =
      jobData.methodGenericTypes := by
    rw [carries.generics]
    exact List.filter_eq_self.mpr numbered.named
  rw [serializableOfGroup, args, generics, head]

/-- Ticks that round to a whole number of seconds are stored as that number. -/
theorem totalSeconds_of_round {seconds : Int} {minRetryWait : Ticks}
    (fits : -2147483648 ≤ seconds ∧ seconds ≤ 2147483647)
    (ticks : Binary64.round minRetryWait = (seconds * ticksPerSecond : Int)) :
    totalSeconds minRetryWait = seconds := by
  have quotient : ((seconds * ticksPerSecond : Int) : ℚ) / ticksPerSecond = seconds := by
    push_cast
    exact mul_div_cancel_right₀ _ (by norm_num [ticksPerSecond])
  have double : Binary64.round (seconds : ℚ) = seconds :=
    @Binary64.round_intCast _ 0 (by omega) (one_dvd _)
  simp only [totalSeconds, ticks, quotient, double, Int.floor_intCast, Int.ceil_intCast, ite_self]
  rw [if_pos fits]

theorem totalSeconds_of_whole {seconds : Int}
    (fits : -2147483648 ≤ seconds ∧ seconds ≤ 2147483647) :
    totalSeconds (seconds * ticksPerSecond) = seconds := by
  apply totalSeconds_of_round fits
  refine @Binary64.round_intCast _ 2 ?_ (Dvd.dvd.mul_left (by decide) seconds)
  rw [ticksPerSecond]
  omega

/-- What the queue knows of a job that was just added. -/
def asAdded (jobData : SerializableOddJob) (retryParameters : RetryParameters) :
    SerializableOddJob :=
  { jobData with
    retryParameters := some {
      maxRetries := retryParameters.maxRetries
      minRetryWait := retryParameters.minRetryWait
      retryCount := 0
      lastAttempt := none } }

variable {rows : List SqlQueueRowSet} {retryParameters : RetryParameters} {seconds : Int}

/-- The rows of an added job form one group, and the group is the job. -/
theorem groupBy_addJob (numbered : Numbered jobData) (fresh : Unknown tables jobData.jobId)
    (retries : jobData.retryParameters = some retryParameters)
    (whole : retryParameters.minRetryWait = seconds * ticksPerSecond)
    (fits : -2147483648 ≤ seconds ∧ seconds ≤ 2147483647)
    (order : Returns (tables.addJob jobData now) (fun q => q.jobGuid = jobData.jobId) rows) :
    ∃ first, rows.head? = some first ∧
      groupBy (fun q => q.metaData.jobGuid) rows = [(jobData.jobId, rows)] ∧
      serializableOfGroup jobData.jobId first rows = asAdded jobData retryParameters := by
  rw [Returns, selected_addJob fresh] at order
  obtain ⟨grouped, first, head, same⟩ := groupBy_of_one order
  refine ⟨first, head, grouped, ?_⟩
  have valid : GroupOf (tables.addJob jobData now) (publishedRow jobData tables.nextId now) rows :=
    ⟨fun row => order.mem_iff⟩
  rw [(stored_addJob fresh).serializableOfGroup_eq valid rfl numbered same]
  have wait : totalSeconds retryParameters.minRetryWait * ticksPerSecond =
      retryParameters.minRetryWait := by
    rw [whole, totalSeconds_of_whole fits]
  simp only [asAdded, retryParametersOf, publishedRow, getMetaDataForJob, retries, Option.map_some,
    Option.getD_some, wait, numbered.status]

section Trip

variable [DecidableEq CliType] {platform : Platform CliType Value} {json : JsonConvert platform}
  {staticClassJob object t : CliType} {jobExpression : MethodCallExpression CliType ParamType Value}
  {settings : SerializableJobCreator.Settings CliType} {jobId : Guid}

/-- A job that was added is read back by its id: once, with the same fields, arguments and
generic types, and decoded by the resolver where executable jobs are asked for. -/
theorem addJob_round_trip
    (made : SerializableJobCreator.createJobDefinition json staticClassJob object t jobExpression
      settings jobId = .ok jobData)
    (retries : jobData.retryParameters = some retryParameters)
    (whole : retryParameters.minRetryWait = seconds * ticksPerSecond)
    (fits : -2147483648 ≤ seconds ∧ seconds ≤ 2147483647)
    (fresh : Unknown tables jobData.jobId)
    (order : Returns (tables.addJob jobData now) (fun q => q.jobGuid = jobData.jobId) rows)
    (decoder : Decoder CliType Value) :
    getSerializableJobsByCriteria rows = [asAdded jobData retryParameters] ∧
    getJobsByCriteria decoder rows =
      (decoder.decode (asAdded jobData retryParameters)).map (fun job => [job]) ∧
    getJob decoder rows = (decoder.decode (asAdded jobData retryParameters)).map some := by
  obtain ⟨first, head, grouped, rebuilt⟩ :=
    groupBy_addJob (numbered_of_createJobDefinition made) fresh retries whole fits order
  have decoded := decoder.ofGroup_eq_decode jobData.jobId first rows
  rw [rebuilt] at decoded
  have executable : executeJoinQuery decoder rows =
      [decoder.decode (asAdded jobData retryParameters)] := by
    simp only [executeJoinQuery, grouped, List.filterMap_cons, List.filterMap_nil, head,
      Option.map_some, decoded]
  refine ⟨?_, ?_, ?_⟩
  · simp only [getSerializableJobsByCriteria, executeSerializableJoinQuery, grouped,
      List.filterMap_cons, List.filterMap_nil, head, Option.map_some, rebuilt]
  · rw [getJobsByCriteria, executable]
    cases decoder.decode (asAdded jobData retryParameters) <;> rfl
  · rw [getJob, executable]
    cases decoder.decode (asAdded jobData retryParameters) <;> rfl

end Trip

def sampleTables : Tables :=
  ({} : Tables).addJob {
    jobId := 3
    jobArgs := [⟨0, some "count", some "5", some "System.Int64, %coretarget%"⟩]
    typeExecutedOn := "Jobs.SampleJob, Jobs"
    methodName := "Add"
    status := .new
    methodGenericTypes := [some "Jobs.SampleJob, Jobs"]
    retryParameters := none
    executionTime := none
    queueName := "default" } 0

open SerializableJobCreator in
theorem addJob_round_trip_of_int64 :
    ∃ jobData, createJobDefinition sampleJson .staticClassJob .object .sampleJob
        (sampleExpression (some .int64))
        ⟨some { maxRetries := 2, minRetryWait := 30 * ticksPerSecond }, none, "default",
          samplePlatform.unversionedName⟩ 7 = .ok jobData ∧
      getSerializableJobsByCriteria (joinQuery
          ((sampleTables.addJob jobData 5).queue.filter fun q => q.jobGuid = jobData.jobId)
          (sampleTables.addJob jobData 5)).reverse =
        [asAdded jobData { maxRetries := 2, minRetryWait := 30 * ticksPerSecond }] := by
  have fresh : Unknown sampleTables 7 := by
    constructor <;> decide
  let decoder : Decoder SampleClr SampleFive := {
    getTypeForJob := fun _ => .ok none
    deserializeObject := fun _ _ => .ok none
    coreFullName := [] }
  have made : createJobDefinition sampleJson .staticClassJob .object .sampleJob
      (sampleExpression (some .int64))
      ⟨some { maxRetries := 2, minRetryWait := 30 * ticksPerSecond }, none, "default",
        samplePlatform.unversionedName⟩ 7 = .ok _ := rfl
  refine ⟨_, made, ?_⟩
  exact (addJob_round_trip made rfl rfl (by decide) fresh (List.reverse_perm _) decoder).1

end OddJob.Sql
