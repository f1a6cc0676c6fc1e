import OddJob.Data
import OddJob.Lib.Linq
import OddJob.TypeNames
import OddJob.Creator

/-! `BaseSqlJobQueueManager`: the statements of a fetch, the join that rebuilds the
jobs from their rows, and the marks. -/

namespace OddJob.Sql

open Linq

variable {CliType Value Key : Type}

/-- `ISqlDbJobQueueTableConfiguration.JobClaimLockTimeoutInSeconds` of the default configuration. -/
def defaultJobClaimLockTimeoutInSeconds : Int := 180

/-- The `Where` of the locking query. A comparison with a null column is not true. -/
def eligible (queueNames : List String) (lockTime lockClaimTimeoutThreshold : Ticks)
    (q : SqlCommonDbOddJobMetaData) : Bool :=
  queueNames.contains q.queueName &&
  (q.doNotExecuteBefore.any (· ≤ lockTime) || q.doNotExecuteBefore.isNone) &&
  (q.status = .new || (q.status = .retry && q.maxRetries ≥ q.retryCount &&
    q.lastAttempt.any fun lastAttempt =>
      lastAttempt + q.minRetryWait * ticksPerSecond ≤ lockTime)) &&
  (q.lockClaimTime.isNone || q.lockClaimTime.any (· < lockClaimTimeoutThreshold))

/-- `DateTime.MinValue` -/
def minValue : Ticks := 0

def jobLockData (q : SqlCommonDbOddJobMetaData) : JobLockData where
  jobId := q.id
  mostRecentDate :=
    if q.createdDate.getD minValue > q.lastAttempt.getD minValue then q.createdDate
    else q.lastAttempt
  createdDate := q.createdDate
  lastAttempt := q.lastAttempt
  retries := q.retryCount
  doNotExecuteBefore := q.doNotExecuteBefore
  status := q.status

/-- One call of `GetJobs`, with the clock it read and the lock it made up. -/
structure Claim (Key : Type) where
  queueNames : List String
  fetchSize : Nat
  orderPredicate : JobLockData → Key
  lockGuid : Guid
  lockTime : Ticks
  jobClaimLockTimeoutInSeconds : Int

namespace Claim

variable [LinearOrder Key] (claim : Claim Key)

def lockClaimTimeoutThreshold : Ticks :=
  claim.lockTime - claim.jobClaimLockTimeoutInSeconds * ticksPerSecond

omit [LinearOrder Key] in
def eligible (q : SqlCommonDbOddJobMetaData) : Bool :=
  Sql.eligible claim.queueNames claim.lockTime claim.lockClaimTimeoutThreshold q

/-- `lockingCheckQuery`, over the rows in the order the database scans them. -/
def lockingCheckQuery (scan : List SqlCommonDbOddJobMetaData) : List JobLockData :=
  (orderBy claim.orderPredicate ((scan.filter claim.eligible).map jobLockData)).take
    claim.fetchSize

/-- The claiming `UPDATE`. -/
def update (scan queue : List SqlCommonDbOddJobMetaData) : List SqlCommonDbOddJobMetaData :=
  updateWhere (fun q => (claim.lockingCheckQuery scan).any fun r => r.jobId = q.id)
    (fun q => { q with lockGuid := some claim.lockGuid, lockClaimTime := some claim.lockTime })
    queue

/-- The rows the claim locks. -/
def Takes (scan : List SqlCommonDbOddJobMetaData) (q : SqlCommonDbOddJobMetaData) : Prop :=
  ((claim.lockingCheckQuery scan).any fun r => r.jobId = q.id) = true

instance (scan : List SqlCommonDbOddJobMetaData) (q : SqlCommonDbOddJobMetaData) :
    Decidable (claim.Takes scan q) :=
  inferInstanceAs (Decidable (_ = true))

theorem exists_eligible_of_takes {scan : List SqlCommonDbOddJobMetaData}
    {q : SqlCommonDbOddJobMetaData} (taken : claim.Takes scan q) :
    ∃ row ∈ scan, row.id = q.id ∧ claim.eligible row = true := by
  obtain ⟨data, listed, same⟩ := List.any_eq_true.mp taken
  have ordered := mem_orderBy.mp (List.mem_of_mem_take listed)
  obtain ⟨row, member, rfl⟩ := List.mem_map.mp ordered
  obtain ⟨present, passes⟩ := List.mem_filter.mp member
  exact ⟨row, present, by simpa [jobLockData] using same, passes⟩

theorem eligible_of_takes {scan queue : List SqlCommonDbOddJobMetaData}
    (order : scan.Perm queue) (ids : (queue.map SqlCommonDbOddJobMetaData.id).Nodup)
    {q : SqlCommonDbOddJobMetaData} (member : q ∈ queue) (taken : claim.Takes scan q) :
    claim.eligible q = true := by
  obtain ⟨row, present, same, passes⟩ := claim.exists_eligible_of_takes taken
  obtain rfl : row = q :=
    List.inj_on_of_nodup_map ids (order.mem_iff.mp present) member same
  exact passes

end Claim

structure SqlQueueRowSet where
  metaData : SqlCommonDbOddJobMetaData
  paramData : SqlCommonOddJobParamMetaData
  jobMethodGenericData : SqlDbOddJobMethodGenericInfo
  deriving DecidableEq

def onParam (job : SqlCommonDbOddJobMetaData) (param : SqlCommonOddJobParamMetaData) : Bool :=
  job.jobGuid = param.jobGuid

def onGeneric (job_param : SqlCommonDbOddJobMetaData × SqlCommonOddJobParamMetaData)
    (jobGeneric : SqlDbOddJobMethodGenericInfo) : Bool :=
  job_param.1.jobGuid = jobGeneric.jobGuid

/-- `LeftJoin(ParamTable).LeftJoin(MethodGenericParameterTable)`; the unmatched side is a
row object with default fields. -/
def joinQuery (jobs : List SqlCommonDbOddJobMetaData) (tables : Tables) : List SqlQueueRowSet :=
  (leftJoin onGeneric {} (leftJoin onParam {} jobs tables.params) tables.generics).map
    fun ((job, param), generic) => ⟨job, param, generic⟩

/-- `JobArgs` up to the projection: the parameters in ordinal order, one for each ordinal. -/
def orderedParams (group : List SqlQueueRowSet) : List SqlCommonOddJobParamMetaData :=
  firsts SqlCommonOddJobParamMetaData.paramOrdinal
    (((orderBy (fun p => p.paramData.paramOrdinal) group).map SqlQueueRowSet.paramData).filter
      fun s => s.serializedType.isSome)

/-- `MethodGenericTypes` up to the projection. -/
def orderedGenerics (group : List SqlQueueRowSet) : List SqlDbOddJobMethodGenericInfo :=
  firsts SqlDbOddJobMethodGenericInfo.paramOrder
    (((orderBy (fun q => q.jobMethodGenericData.paramOrder) group).filter
      fun t => t.jobMethodGenericData.paramTypeName.isSome).map SqlQueueRowSet.jobMethodGenericData)

/-- `new RetryParameters(MaxRetries, TimeSpan.FromSeconds(MinRetryWait), RetryCount, LastAttempt)` -/
def retryParametersOf (q : SqlCommonDbOddJobMetaData) : RetryParameters where
  maxRetries := q.maxRetries
  minRetryWait := q.minRetryWait * ticksPerSecond
  retryCount := q.retryCount
  lastAttempt := q.lastAttempt

def serializedParameter (s : SqlCommonOddJobParamMetaData) : OddJobSerializedParameter where
  ordinal := s.paramOrdinal
  name := s.parameterName
  value := s.serializedValue
  typeName := s.serializedType

def serializableOfGroup (jobGuid : Guid) (first : SqlQueueRowSet) (group : List SqlQueueRowSet) :
    SerializableOddJob where
  jobId := jobGuid
  methodName := first.metaData.methodName
  typeExecutedOn := first.metaData.typeExecutedOn
  status := first.metaData.status
  executionTime := first.metaData.doNotExecuteBefore
  queueName := first.metaData.queueName
  jobArgs := (orderedParams group).map serializedParameter
  retryParameters := some (retryParametersOf first.metaData)
  methodGenericTypes := (orderedGenerics group).map SqlDbOddJobMethodGenericInfo.paramTypeName

/-- `ExecuteSerializableJoinQuery` on the rows the database returned. -/
def executeSerializableJoinQuery (resultSet : List SqlQueueRowSet) : List SerializableOddJob :=
  (groupBy (fun q => q.metaData.jobGuid) resultSet).filterMap fun (jobGuid, group) =>
    group.head?.map fun first => serializableOfGroup jobGuid first group

/-- What `ExecuteJoinQuery` needs of the platform: the injected `IJobTypeResolver`,
Json.NET, and the name of the core assembly. -/
structure Decoder (CliType Value : Type) where
  getTypeForJob : Option String → Except ClrException (Option CliType)
  deserializeObject : Option String → Option CliType → Except ClrException (Option Value)
  coreFullName : List Char

namespace Decoder

variable (decoder : Decoder CliType Value)

def param (s : SqlCommonOddJobParamMetaData) : Except ClrException (OddJobParameter Value) := do
  let type ← decoder.getTypeForJob s.serializedType
  let value ← decoder.deserializeObject s.serializedValue type
  return {
    name := s.parameterName
    value
    type := s.serializedType.map fun name => String.ofList
      (TargetPlatformHelpers.replaceCoreTypes decoder.coreFullName name.toList) }

def ofGroup (jobGuid : Guid) (first : SqlQueueRowSet) (group : List SqlQueueRowSet) :
    Except ClrException (SqlDbOddJob CliType Value) := do
  let typeExecutedOn ← decoder.getTypeForJob (some first.metaData.typeExecutedOn)
  let jobArgs ← (orderedParams group).mapM decoder.param
  let methodGenericTypes ← (orderedGenerics group).mapM fun t =>
    decoder.getTypeForJob t.paramTypeName
  return {
    jobId := jobGuid
    methodName := first.metaData.methodName
    typeExecutedOn
    status := first.metaData.status
    executionTime := first.metaData.doNotExecuteBefore
    queue := first.metaData.queueName
    jobArgs
    retryParameters := retryParametersOf first.metaData
    methodGenericTypes }

end Decoder

/-- `ExecuteJoinQuery` on the rows the database returned, one decoded job a group. -/
def executeJoinQuery (decoder : Decoder CliType Value) (resultSet : List SqlQueueRowSet) :
    List (Except ClrException (SqlDbOddJob CliType Value)) :=
  (groupBy (fun q => q.metaData.jobGuid) resultSet).filterMap fun (jobGuid, group) =>
    group.head?.map fun first => decoder.ofGroup jobGuid first group

/-- `ToList()` of a lazy query: the first exception ends it. -/
def toList : List (Except ClrException Row) → Except ClrException (List Row)
  | [] => .ok []
  | .error thrown :: _ => .error thrown
  | .ok row :: rest => do return row :: (← toList rest)

/-- `FirstOrDefault()` of a lazy query runs it up to its first row. -/
def firstOrDefault : List (Except ClrException Row) → Except ClrException (Option Row)
  | [] => .ok none
  | first :: _ => do return some (← first)

/-- The rows a query selects come back joined, in any order. -/
def Returns (tables : Tables) (criteria : SqlCommonDbOddJobMetaData → Bool)
    (resultSet : List SqlQueueRowSet) : Prop :=
  resultSet.Perm (joinQuery (tables.queue.filter criteria) tables)

instance (tables : Tables) (criteria : SqlCommonDbOddJobMetaData → Bool)
    (resultSet : List SqlQueueRowSet) : Decidable (Returns tables criteria resultSet) :=
  inferInstanceAs (Decidable (List.Perm _ _))

def getSerializableJobsByCriteria (resultSet : List SqlQueueRowSet) : List SerializableOddJob :=
  executeSerializableJoinQuery resultSet

/-- The values of a column, in the order of a scan. -/
def getJobCriteriaValues {Column : Type} [DecidableEq Column]
    (selector : SqlCommonDbOddJobMetaData → Column) (scan : List SqlCommonDbOddJobMetaData) :
    List Column :=
  distinct (scan.map selector)

/-- Here nothing is left out. -/
def getJobCriteriaByCriteria {Column : Type} (criteria : SqlCommonDbOddJobMetaData → Bool)
    (selector : SqlCommonDbOddJobMetaData → Column) (scan : List SqlCommonDbOddJobMetaData) :
    List Column :=
  (scan.filter criteria).map selector

def getJobsByCriteria (decoder : Decoder CliType Value) (resultSet : List SqlQueueRowSet) :
    Except ClrException (List (SqlDbOddJob CliType Value)) :=
  toList (executeJoinQuery decoder resultSet)

def getJob (decoder : Decoder CliType Value) (resultSet : List SqlQueueRowSet) :
    Except ClrException (Option (SqlDbOddJob CliType Value)) :=
  firstOrDefault (executeJoinQuery decoder resultSet)

def updateJob (jobGuid : Guid) (set : SqlCommonDbOddJobMetaData → SqlCommonDbOddJobMetaData)
    (tables : Tables) : Tables :=
  { tables with queue := updateWhere (fun q => q.jobGuid = jobGuid) set tables.queue }

def markJobSuccess (jobGuid : Guid) : Tables → Tables :=
  updateJob jobGuid fun q => { q with status := .processed, lockClaimTime := none }

def markJobFailed (jobGuid : Guid) : Tables → Tables :=
  updateJob jobGuid fun q => { q with status := .failed, lockClaimTime := none }

def markJobInProgress (jobId : Guid) (now : Ticks) : Tables → Tables :=
  updateJob jobId fun q =>
    { q with status := .inProgress, lockClaimTime := none, lastAttempt := some now }

/-- The `lastAttempt` of the caller is not used. -/
def markJobInRetryAndIncrement (jobId : Guid) (_lastAttempt : Ticks) (now : Ticks) :
    Tables → Tables :=
  updateJob jobId fun q =>
    { q with
      retryCount := q.retryCount + 1
      status := .retry
      lastAttempt := some now
      lockClaimTime := none }

end OddJob.Sql

namespace OddJob.Mark

open Linq Sql

def apply (mark : Mark) (jobId : Guid) (now : Ticks) : Tables → Tables :=
  match mark with
  | .markJobSuccess => Sql.markJobSuccess jobId
  | .markJobFailed => Sql.markJobFailed jobId
  | .markJobInProgress => Sql.markJobInProgress jobId now
  | .markJobInRetryAndIncrement lastAttempt =>
    Sql.markJobInRetryAndIncrement jobId lastAttempt now

/-- What a mark makes of the rows of its job. -/
def set (mark : Mark) (now : Ticks) (q : SqlCommonDbOddJobMetaData) : SqlCommonDbOddJobMetaData :=
  match mark with
  | .markJobSuccess => { q with status := .processed, lockClaimTime := none }
  | .markJobFailed => { q with status := .failed, lockClaimTime := none }
  | .markJobInProgress =>
    { q with status := .inProgress, lockClaimTime := none, lastAttempt := some now }
  | .markJobInRetryAndIncrement _ =>
    { q with
      retryCount := q.retryCount + 1
      status := .retry
      lastAttempt := some now
      lockClaimTime := none }

variable (mark : Mark) (jobId : Guid) (now : Ticks)

theorem apply_eq : mark.apply jobId now = updateJob jobId (mark.set now) := by
  cases mark <;> rfl

@[simp] theorem set_id (q : SqlCommonDbOddJobMetaData) : (mark.set now q).id = q.id := by
  cases mark <;> rfl

@[simp] theorem set_jobGuid (q : SqlCommonDbOddJobMetaData) :
    (mark.set now q).jobGuid = q.jobGuid := by
  cases mark <;> rfl

@[simp] theorem set_maxRetries (q : SqlCommonDbOddJobMetaData) :
    (mark.set now q).maxRetries = q.maxRetries := by
  cases mark <;> rfl

@[simp] theorem set_minRetryWait (q : SqlCommonDbOddJobMetaData) :
    (mark.set now q).minRetryWait = q.minRetryWait := by
  cases mark <;> rfl

@[simp] theorem set_lockGuid (q : SqlCommonDbOddJobMetaData) :
    (mark.set now q).lockGuid = q.lockGuid := by
  cases mark <;> rfl

@[simp] theorem set_lockClaimTime (q : SqlCommonDbOddJobMetaData) :
    (mark.set now q).lockClaimTime = none := by
  cases mark <;> rfl

end OddJob.Mark
