import OddJob.Akka.Shell
import OddJob.Cluster.System
import OddJob.Sql.Fetch

/-! From `StartJobQueue` to the claiming `UPDATE`: which jobs the sweeps of a started
queue claim, against the order that its caller asked for. -/

namespace OddJob

open Akka Sql Linq Transition

variable {Job Key : Type} [OddJobWithMetadata Job]

namespace Akka

/-- The sweeps ask for as many jobs of the queue as it has workers. -/
structure AsksFor (queueName : String) (numWorkers : Nat) (engine : Engine Job) : Prop where
  name : engine.coordinator.queueName = queueName
  size : engine.coordinator.workerCount = numWorkers
  asked : ∀ request, LayerMessage.getJobs request ∈ engine.layer →
    request.queueName = queueName ∧ request.fetchSize = numWorkers
  fetching : ∀ request, engine.fetching = some request →
    request.queueName = queueName ∧ request.fetchSize = numWorkers

variable {queueName : String} {numWorkers : Nat} {engine after : Engine Job} {action : Action Job}

theorem AsksFor.moves (valid : AsksFor queueName numWorkers engine)
    (move : Moves engine action after) : AsksFor queueName numWorkers after := by
  obtain ⟨name, size, asked, fetching⟩ := valid
  cases move with
  | posted | ignored | shutDown | replied | timedOut | loopEnded | dispatched | acknowledged
  | workerDrained | started | finished => exact ⟨name, size, asked, fetching⟩
  | fetchLost | fetchDelivered => exact ⟨name, size, asked, by simp⟩
  | lastReplied => exact ⟨name, size, by simpa using asked, fetching⟩
  | asked message rest idle split sweep running below =>
    refine ⟨name, size, ?_, fetching⟩
    intro request member
    rcases List.mem_append.mp member with older | newer
    · exact asked request older
    · cases List.mem_singleton.mp newer
      exact ⟨name, size⟩
  | saturated message rest extra state calls errors idle split sweep same silent left queue =>
    exact ⟨same.queueName.trans name, same.workerCount.trans size, asked, fetching⟩
  | resultHandled =>
    refine ⟨name, size, ?_, fetching⟩
    simpa [Engine.handleResult, Engine.guarded, Engine.record, Engine.tellLayer] using asked
  | missingFailed =>
    refine ⟨name, size, ?_, fetching⟩
    simpa [Engine.failMissing, Engine.guarded, Engine.record, Engine.tellLayer] using asked
  | inProgressTold =>
    refine ⟨name, size, ?_, fetching⟩
    simpa [Engine.tellInProgress, Engine.tellLayer] using asked
  | storeFlushed rest free front | commandProcessed command rest free front =>
    rw [front] at asked
    exact ⟨name, size, fun other member => asked other (List.mem_cons_of_mem _ member), fetching⟩
  | fetchStarted request rest free front =>
    rw [front] at asked
    refine ⟨name, size, fun other member => asked other (List.mem_cons_of_mem _ member), ?_⟩
    intro other busy
    exact asked other (Option.some.inj busy ▸ List.mem_cons_self)

theorem asksFor_of_reaches {config : SetJobQueueConfiguration Key}
    (reached : Reaches Engine.step anyAction (Engine.setJobQueueConfiguration config) engine) :
    AsksFor config.queueName config.numWorkers engine := by
  apply reached.invariant
  · exact ⟨rfl, rfl, by simp [Engine.setJobQueueConfiguration, Engine.configured],
      by simp [Engine.setJobQueueConfiguration, Engine.configured]⟩
  · exact fun _ _ _ valid _ taken => valid.moves (moves_of_step taken)

/-- The fetch that the caller of `StartJobQueue` asks for with every sweep. -/
def StartArguments.fetch (configuration : Configuration Key) (arguments : StartArguments Key)
    (lockGuid : Guid) (now : Ticks) : Claim Key where
  queueNames := [arguments.queueName]
  fetchSize := arguments.numWorkers
  orderPredicate := arguments.priExpr configuration.collate
  lockGuid
  lockTime := now
  jobClaimLockTimeoutInSeconds := configuration.jobClaimLockTimeoutInSeconds

end Akka

section Sweeps

variable {configuration : Configuration Key} {arguments : StartArguments Key}
  {engine : Engine Job} {request : GetJobs}

/-- The queue layer fetches what the caller of `StartJobQueue` asked for, in another order. -/
theorem call_eq_fetch
    (reached : Reaches Engine.step anyAction
      (Engine.setJobQueueConfiguration (arguments.configuration configuration.collate)) engine)
    (fetching : engine.fetching = some request) (lockGuid : Guid) (now : Ticks) :
    Node.call configuration request lockGuid now =
      { arguments.fetch configuration lockGuid now with
        orderPredicate := defaultJobQueueManagerPriority configuration.collate } := by
  obtain ⟨name, size⟩ := (asksFor_of_reaches reached).fetching request fetching
  simp only [Node.call, StartArguments.fetch, name, size]
  rfl

variable [LinearOrder Key]

/-- A sweep of a started queue claims the first eligible jobs in the order of the priority
expression, however the database scans the table, exactly when that expression agrees with
the most recent dates on the jobs at the limit. -/
theorem sweep_claims_by_priority_iff
    (reached : Reaches Engine.step anyAction
      (Engine.setJobQueueConfiguration (arguments.configuration configuration.collate)) engine)
    (fetching : engine.fetching = some request) {queue : List SqlCommonDbOddJobMetaData}
    (ids : (queue.map SqlCommonDbOddJobMetaData.id).Nodup) (lockGuid : Guid) (now : Ticks) :
    let asked := arguments.fetch configuration lockGuid now
    let eligible := queue.filter fun q => asked.Eligible q
    let date := fun q => configuration.collate (jobLockData q).mostRecentDate
    (∀ scan : List SqlCommonDbOddJobMetaData, scan.Perm queue →
      First asked.priority arguments.numWorkers eligible
        (queue.filter fun q => (Node.call configuration request lockGuid now).Takes scan q)) ↔
    AgreesAtLimit date asked.priority arguments.numWorkers eligible := by
  intro asked eligible date
  have called := call_eq_fetch reached fetching lockGuid now
  have passes : eligible = queue.filter asked.eligible := by
    apply List.filter_congr
    intro q _
    rw [Bool.eq_iff_iff, decide_eq_true_eq]
    exact Claim.eligible_iff.symm
  have distinct : eligible.Nodup := (List.Nodup.of_map _ ids).filter _
  have taken (scan : List SqlCommonDbOddJobMetaData) (order : scan.Perm queue) :
      (queue.filter fun q => (Node.call configuration request lockGuid now).Takes scan q).Perm
        ((orderBy date (scan.filter asked.eligible)).take arguments.numWorkers) := by
    have first := (Node.call configuration request lockGuid now).takes_perm order ids
    rw [called] at first ⊢
    exact first
  rw [← first_take_iff asked.priority distinct]
  constructor
  · intro always scan order
    -- the rows that are not eligible may be scanned last
    have whole : (scan ++ queue.filter fun q => !asked.eligible q).Perm queue := by
      rw [passes] at order
      exact (order.append_right _).trans (List.filter_append_perm _ queue)
    have kept : (scan ++ queue.filter fun q => !asked.eligible q).filter asked.eligible = scan := by
      have own : scan.filter asked.eligible = scan := by
        apply List.filter_eq_self.mpr
        intro q member
        exact (List.mem_filter.mp (passes ▸ order.mem_iff.mp member)).2
      have others : (queue.filter fun q => !asked.eligible q).filter asked.eligible = [] := by
        rw [List.filter_filter]
        simp
      rw [List.filter_append, own, others, List.append_nil]
    have claimed := taken _ whole
    rw [kept] at claimed
    exact (always _ whole).congr (List.Perm.refl _) claimed
  · intro always scan order
    have rows : (scan.filter asked.eligible).Perm eligible := passes ▸ order.filter _
    exact (always _ rows).congr (List.Perm.refl _) (taken scan order).symm

/-- The default expression is the order that the sweeps use. -/
theorem agreesAtLimit_default (standard : arguments.priorityExpresssion = none)
    (lockGuid : Guid) (now : Ticks) (limit : Nat) (rows : List SqlCommonDbOddJobMetaData) :
    AgreesAtLimit (fun q => configuration.collate (jobLockData q).mostRecentDate)
      (arguments.fetch configuration lockGuid now).priority limit rows := by
  have same : (arguments.fetch configuration lockGuid now).priority =
      fun q => configuration.collate (jobLockData q).mostRecentDate := by
    funext q
    simp only [Claim.priority, StartArguments.fetch, StartArguments.priExpr, standard]
    rfl
  rw [same]
  exact agreesAtLimit_self

end Sweeps

def datesAsTicks : Configuration Int where
  jobClaimLockTimeoutInSeconds := defaultJobClaimLockTimeoutInSeconds
  collate date := date.getD minValue

def fewestRetriesFirst : StartArguments Int where
  queueName := "default"
  numWorkers := 1
  pulseDelayInSeconds := 5
  priorityExpresssion := some JobLockData.retries

/-- The older job has been tried once. -/
def triedAndUntried : List SqlCommonDbOddJobMetaData :=
  [queuedRow 1 .new none, { queuedRow 2 .new none with createdDate := some 20, retryCount := 0 }]

def firstSweep : List (Action (SqlDbOddJob String String)) :=
  [.post .jobSweep, .receive 0 30 .returned, .layerReceive]

def byDate : StartArguments Int := { fewestRetriesFirst with priorityExpresssion := none }

theorem sweep_claims_by_priority_of_default : ∃ engine : Engine (SqlDbOddJob String String),
    execute (fun _ _ => true) Engine.step
      (Engine.setJobQueueConfiguration (byDate.configuration datesAsTicks.collate))
      firstSweep = some engine ∧
    First (fun q => (jobLockData q).mostRecentDate.getD minValue) 1 triedAndUntried
      (triedAndUntried.filter fun q =>
        (Node.call datesAsTicks ⟨0, "default", 1⟩ 40 100).Takes triedAndUntried q) := by
  refine ⟨_, rfl, ?_⟩
  have reached := reaches_of_execute (fun _ _ _ => trivial)
    (rfl : execute (fun (_ : Engine (SqlDbOddJob String String)) _ => true) Engine.step
      (Engine.setJobQueueConfiguration (byDate.configuration datesAsTicks.collate))
      firstSweep = some _)
  exact (sweep_claims_by_priority_iff reached rfl (by decide) 40 100).mpr
    (agreesAtLimit_default rfl 40 100 1 _) triedAndUntried (List.Perm.refl _)

/-- The sweep claims the older job and leaves the one with fewer retries. -/
theorem sweep_ignores_priority : ∃ engine : Engine (SqlDbOddJob String String),
    execute (fun _ _ => true) Engine.step
      (Engine.setJobQueueConfiguration (fewestRetriesFirst.configuration datesAsTicks.collate))
      firstSweep = some engine ∧
    engine.fetching = some ⟨0, "default", 1⟩ ∧
    ¬ First (fewestRetriesFirst.fetch datesAsTicks 40 100).priority 1
      (triedAndUntried.filter fun q => (fewestRetriesFirst.fetch datesAsTicks 40 100).Eligible q)
      (triedAndUntried.filter fun q =>
        (Node.call datesAsTicks ⟨0, "default", 1⟩ 40 100).Takes triedAndUntried q) := by
  refine ⟨_, rfl, rfl, ?_⟩
  intro first
  have ordered := first.ahead
    { queuedRow 2 .new none with createdDate := some 20, retryCount := 0 } (by decide) (by decide)
    (queuedRow 1 .new none) (by decide)
  exact absurd ordered (by decide)

end OddJob
