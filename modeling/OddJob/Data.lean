import Mathlib.Algebra.Group.Int.Defs
import Mathlib.Algebra.Group.Nat.Defs

/-! Jobs and their retry parameters, in the three shapes the program passes
around: the wire form, the stored rows and the job a manager hands out. -/

namespace OddJob

/-- `Guid` values are only compared. -/
abbrev Guid := Nat

/-- Instants and durations, both counted in the 100 ns ticks of `DateTime` and `TimeSpan`. -/
abbrev Ticks := Int

def ticksPerSecond : Ticks := 10000000

/-- What an `int` holds: nothing checks for overflow. -/
def wrapInt32 (n : Int) : Int := n.bmod (2 ^ 32)

def wrapInt64 (n : Int) : Int := n.bmod (2 ^ 64)

theorem wrapInt32_add (n k : Int) : wrapInt32 (wrapInt32 n + k) = wrapInt32 (n + k) :=
  Int.bmod_add_bmod

theorem wrapInt64_add (n k : Int) : wrapInt64 (wrapInt64 n + k) = wrapInt64 (n + k) :=
  Int.bmod_add_bmod

theorem wrapInt32_of_lt {n : Nat} (small : n < 2 ^ 31) : wrapInt32 n = n :=
  Int.bmod_eq_of_le (by omega) (by omega)

theorem wrapInt64_of_lt {n : Nat} (small : n < 2 ^ 63) : wrapInt64 n = n :=
  Int.bmod_eq_of_le (by omega) (by omega)

/-- The status column is free text; `JobStates` names six of its values. -/
inductive JobStates where
  | processed
  | new
  | failed
  | retry
  | inProgress
  | inserting
  | other (text : String)
  deriving DecidableEq, Repr

/-- A job in one of these states is settled. -/
def JobStates.terminal : JobStates → Bool
  | .processed | .failed => true
  | _ => false

/-- The calls of `IJobQueueManager` that change a job. -/
inductive Mark where
  | markJobInProgress
  | markJobFailed
  | markJobSuccess
  | markJobInRetryAndIncrement (lastAttempt : Ticks)
  deriving DecidableEq, Repr

structure RetryParameters where
  maxRetries : Int := 0
  minRetryWait : Ticks := 0
  retryCount : Int := 0
  lastAttempt : Option Ticks := none
  deriving DecidableEq, Repr

/-- The members of `IOddJobWithMetadata` that an execution engine decides on. -/
class OddJobWithMetadata (Job : Type) where
  jobId : Job → Guid
  /-- `TypeExecutedOn == null` -/
  typeMissing : Job → Bool
  retryParameters : Job → Option RetryParameters

structure OddJobSerializedParameter where
  ordinal : Int
  name : Option String
  value : Option String
  typeName : Option String
  deriving DecidableEq, Repr

structure SerializableOddJob where
  jobId : Guid
  jobArgs : List OddJobSerializedParameter
  typeExecutedOn : String
  methodName : String
  status : JobStates
  methodGenericTypes : List (Option String)
  retryParameters : Option RetryParameters
  executionTime : Option Ticks
  queueName : String
  deriving DecidableEq, Repr

structure SqlCommonDbOddJobMetaData where
  id : Int
  jobGuid : Guid
  typeExecutedOn : String
  methodName : String
  maxRetries : Int
  minRetryWait : Int
  lastAttempt : Option Ticks
  retryCount : Int
  status : JobStates
  queueName : String
  doNotExecuteBefore : Option Ticks
  lockClaimTime : Option Ticks
  lockGuid : Option Guid
  createdDate : Option Ticks
  deriving DecidableEq, Repr

structure SqlCommonOddJobParamMetaData where
  jobGuid : Guid := 0
  paramOrdinal : Int := 0
  serializedValue : Option String := none
  serializedType : Option String := none
  parameterName : Option String := none
  deriving DecidableEq, Repr

structure SqlDbOddJobMethodGenericInfo where
  jobGuid : Guid := 0
  paramOrder : Int := 0
  paramTypeName : Option String := none
  deriving DecidableEq, Repr

/-- The three tables of one queue configuration, and the identity counter of the first. -/
structure Tables where
  queue : List SqlCommonDbOddJobMetaData := []
  params : List SqlCommonOddJobParamMetaData := []
  generics : List SqlDbOddJobMethodGenericInfo := []
  nextId : Int := 1
  deriving DecidableEq

/-- The projection of a row that a priority expression can order by. -/
structure JobLockData where
  jobId : Int
  mostRecentDate : Option Ticks
  createdDate : Option Ticks
  lastAttempt : Option Ticks
  retries : Int
  doNotExecuteBefore : Option Ticks
  status : JobStates

/-- `none` is the null value. -/
structure OddJobParameter (Value : Type) where
  name : Option String
  value : Option Value
  type : Option String := none
  deriving DecidableEq

structure OddJobWithMetaData (CliType Value : Type) where
  retryParameters : Option RetryParameters
  jobId : Guid
  jobArgs : List (OddJobParameter Value)
  typeExecutedOn : Option CliType
  methodName : String
  status : JobStates
  methodGenericTypes : List (Option CliType)
  executionTime : Option Ticks
  queue : String
  deriving DecidableEq

structure SqlDbOddJob (CliType Value : Type) where
  jobId : Guid
  jobArgs : List (OddJobParameter Value)
  typeExecutedOn : Option CliType
  methodName : String
  status : JobStates
  methodGenericTypes : List (Option CliType)
  retryParameters : RetryParameters
  queue : String
  executionTime : Option Ticks
  deriving DecidableEq

instance : OddJobWithMetadata (SqlDbOddJob CliType Value) where
  jobId := SqlDbOddJob.jobId
  typeMissing job := job.typeExecutedOn.isNone
  retryParameters job := some job.retryParameters

instance : OddJobWithMetadata (OddJobWithMetaData CliType Value) where
  jobId := OddJobWithMetaData.jobId
  typeMissing job := job.typeExecutedOn.isNone
  retryParameters := OddJobWithMetaData.retryParameters

end OddJob
