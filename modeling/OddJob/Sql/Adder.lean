import OddJob.Data
import OddJob.Lib.Binary64
import OddJob.Lib.Linq

/-! `BaseSqlJobQueueAdder`: a job is written in four statements, and only the last
one makes it visible to a fetch. -/

namespace OddJob.Sql

open Linq

/-- `(int?) MinRetryWait.TotalSeconds`: the ticks and their quotient are doubles, the fraction
is dropped, and a number of seconds that is no `int` becomes the smallest one. -/
def totalSeconds (minRetryWait : Ticks) : Int :=
  let ticks := Binary64.round minRetryWait
  let seconds := Binary64.round (ticks / ticksPerSecond)
  let whole := if 0 ≤ seconds then ⌊seconds⌋ else ⌈seconds⌉
  if -2147483648 ≤ whole ∧ whole ≤ 2147483647 then whole else -2147483648

/-- The values of the first statement of `_addJobImpl`. -/
def getMetaDataForJob (jobData : SerializableOddJob) (id : Int) (now : Ticks) :
    SqlCommonDbOddJobMetaData where
  id
  queueName := jobData.queueName
  typeExecutedOn := jobData.typeExecutedOn
  methodName := jobData.methodName
  doNotExecuteBefore := jobData.executionTime
  jobGuid := jobData.jobId
  status := .inserting
  createdDate := some now
  maxRetries := (jobData.retryParameters.map RetryParameters.maxRetries).getD 0
  minRetryWait := (jobData.retryParameters.map fun q => totalSeconds q.minRetryWait).getD 0
  retryCount := 0
  lastAttempt := none
  lockClaimTime := none
  lockGuid := none

def getParamDataForJob (jobData : SerializableOddJob) : List SqlCommonOddJobParamMetaData :=
  jobData.jobArgs.map fun q => {
    jobGuid := jobData.jobId
    paramOrdinal := q.ordinal
    serializedValue := q.value
    serializedType := q.typeName
    parameterName := q.name }

def getGenericDataForJob (jobData : SerializableOddJob) : List SqlDbOddJobMethodGenericInfo :=
  jobData.methodGenericTypes.zipIdx.map fun (q, i) => {
    jobGuid := jobData.jobId
    paramOrder := i
    paramTypeName := q }

end OddJob.Sql

namespace OddJob.Tables

open Linq Sql

/-- `InsertWithInt64Identity` -/
def insertMetaData (tables : Tables) (jobData : SerializableOddJob) (now : Ticks) : Tables × Int :=
  ({ tables with
    queue := tables.queue ++ [getMetaDataForJob jobData tables.nextId now]
    nextId := tables.nextId + 1 }, tables.nextId)

/-- The bulk copy of the parameters, left out where there are none. -/
def copyParams (tables : Tables) (jobData : SerializableOddJob) : Tables :=
  let paramData := getParamDataForJob jobData
  if paramData.length > 0 then { tables with params := tables.params ++ paramData } else tables

/-- The bulk copy of the generic arguments. -/
def copyGenerics (tables : Tables) (jobData : SerializableOddJob) : Tables :=
  let jobGenParams := getGenericDataForJob jobData
  if jobGenParams.length > 0 then { tables with generics := tables.generics ++ jobGenParams }
  else tables

/-- `.Where(q => q.Id == insertedId).Set(q => q.Status, JobStates.New).Update()` -/
def publish (tables : Tables) (insertedId : Int) : Tables :=
  { tables with
    queue := updateWhere (fun q => q.id = insertedId) (fun q => { q with status := .new })
      tables.queue }

/-- `_addJobImpl` without interruption. -/
def addJob (tables : Tables) (jobData : SerializableOddJob) (now : Ticks) : Tables :=
  let (tables, insertedId) := tables.insertMetaData jobData now
  ((tables.copyParams jobData).copyGenerics jobData).publish insertedId

variable (tables : Tables) (jobData : SerializableOddJob)

@[simp] theorem copyParams_params :
    (tables.copyParams jobData).params = tables.params ++ getParamDataForJob jobData := by
  simp only [copyParams]
  split
  · rfl
  · rename_i empty
    rw [List.eq_nil_of_length_eq_zero (Nat.eq_zero_of_not_pos empty), List.append_nil]

@[simp] theorem copyParams_queue : (tables.copyParams jobData).queue = tables.queue := by
  simp only [copyParams]
  split <;> rfl

@[simp] theorem copyParams_generics : (tables.copyParams jobData).generics = tables.generics := by
  simp only [copyParams]
  split <;> rfl

@[simp] theorem copyParams_nextId : (tables.copyParams jobData).nextId = tables.nextId := by
  simp only [copyParams]
  split <;> rfl

@[simp] theorem copyGenerics_generics :
    (tables.copyGenerics jobData).generics = tables.generics ++ getGenericDataForJob jobData := by
  simp only [copyGenerics]
  split
  · rfl
  · rename_i empty
    rw [List.eq_nil_of_length_eq_zero (Nat.eq_zero_of_not_pos empty), List.append_nil]

@[simp] theorem copyGenerics_queue : (tables.copyGenerics jobData).queue = tables.queue := by
  simp only [copyGenerics]
  split <;> rfl

@[simp] theorem copyGenerics_params : (tables.copyGenerics jobData).params = tables.params := by
  simp only [copyGenerics]
  split <;> rfl

@[simp] theorem copyGenerics_nextId : (tables.copyGenerics jobData).nextId = tables.nextId := by
  simp only [copyGenerics]
  split <;> rfl

end OddJob.Tables
