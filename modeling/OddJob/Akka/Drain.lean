import OddJob.Lib.Amortized
import OddJob.Akka.Saturation
import OddJob.Akka.Sweep

/-! Liveness. What is posted gives the actors work for so many steps and no more, and when
none of them can go on, nothing that was posted or fetched is left undone. -/

namespace OddJob.Akka

open Transition

variable {Job : Type}

/-- How many steps a message can still cause in an engine of `numWorkers` workers. -/
def CoordinatorMessage.work (numWorkers : Nat) : CoordinatorMessage Job → Nat
  | .shutDownQueues _ => 1 + 4 * numWorkers
  | .queueShutDown => 3
  | .jobSweep => 5 + 7 * numWorkers
  | .silentRetrySweep => 4 + 7 * numWorkers
  | .jobSuceeded _ | .jobFailed _ => 2
  | .custom => 1

def LayerMessage.work : LayerMessage → Nat
  | .getJobs _ => 2
  | .shutDownQueues | .command _ => 1

def JobWorker.work (worker : JobWorker Job) : Nat :=
  4 * worker.mailbox.length + 3 * worker.running.toList.length

/-- A batch is at most one job for each worker, and a job costs seven steps from the
batch to the command that settles it. -/
def Phase.work (numWorkers : Nat) : Phase Job → Nat
  | .idle => 0
  | .awaitingJobs _ => 1 + 7 * numWorkers
  | .queueing rest => 1 + 7 * rest.length
  | .marking _ _ rest => 3 + 7 * rest.length
  | .awaitingStore | .acknowledging => 1

namespace Engine

def work (numWorkers : Nat) (engine : Engine Job) : Nat :=
  (engine.mailbox.map (CoordinatorMessage.work numWorkers)).sum +
    (engine.workers.map JobWorker.work).sum + (engine.layer.map LayerMessage.work).sum +
    engine.fetching.toList.length + engine.phase.work numWorkers

/-- The action takes a `SilentRetrySweep` that comes at the limit and is sent again. -/
def resweeps (engine : Engine Job) : Action Job → Bool
  | .receive index _ _ =>
    engine.mailbox[index]?.any CoordinatorMessage.isSilent && !engine.coordinator.shuttingDown &&
      engine.isSaturated && engine.coordinator.aggressiveSweep
  | _ => false

end Engine

section Steps

variable {numWorkers : Nat} {engine after : Engine Job}

private theorem work_taken {index : Nat} {message : CoordinatorMessage Job}
    (found : engine.mailbox[index]? = some message) :
    ({ engine with mailbox := engine.mailbox.eraseIdx index } : Engine Job).work numWorkers +
      message.work numWorkers = engine.work numWorkers := by
  have taken := List.sum_map_eraseIdx (CoordinatorMessage.work numWorkers) found
  simp only [Engine.work]
  omega

private theorem work_handleSweep (size : engine.coordinator.workerCount = numWorkers)
    (idle : engine.phase = .idle) (silent : Bool) (now : Ticks) (hook : Outcome) :
    (engine.handleSweep silent now hook).work numWorkers + (!(engine.isSaturated &&
      engine.coordinator.aggressiveSweep)).toNat ≤ engine.work numWorkers + (4 + 7 * numWorkers) := by
  have resting : engine.phase.work numWorkers = 0 := by rw [idle, Phase.work]
  by_cases unsaturated : engine.coordinator.pendingItems < engine.coordinator.workerCount * 2
  · have limit : engine.isSaturated = false := by simp [Engine.isSaturated, unsaturated]
    simp only [Engine.handleSweep, unsaturated, ↓reduceIte, Engine.work, List.map_append,
      List.sum_append, List.map_cons, List.map_nil, List.sum_cons, List.sum_nil,
      LayerMessage.work, Phase.work, limit, Bool.false_and, Bool.not_false, Bool.toNat_true]
    omega
  · have limit : engine.isSaturated = true := by simp [Engine.isSaturated, unsaturated]
    cases silent <;> cases aggressive : engine.coordinator.aggressiveSweep <;>
      simp [Engine.handleSweep, unsaturated, aggressive, limit, Engine.guarded, Engine.work,
        CoordinatorMessage.work] <;> omega

private theorem work_broadcast (workers : List (JobWorker Job)) :
    ((workers.map fun worker => { worker with
      mailbox := worker.mailbox ++ [.shutDownQueues] }).map JobWorker.work).sum =
      (workers.map JobWorker.work).sum + 4 * workers.length := by
  induction workers with
  | nil => rfl
  | cons worker rest ih =>
    simp only [List.map_cons, List.sum_cons, List.length_cons, ih, JobWorker.work,
      List.length_append, List.length_nil]
    omega

variable [OddJobWithMetadata Job]

private theorem work_handleResult (engine : Engine Job) (request : ExecuteJobRequest Job)
    (outcome : Outcome) (now : Ticks) (hook : Outcome) :
    (engine.handleResult request outcome now hook).work numWorkers = engine.work numWorkers + 1 := by
  simp [Engine.handleResult, Engine.guarded, Engine.record, Engine.tellLayer, Engine.work,
    LayerMessage.work]
  omega

private theorem work_receive (size : engine.coordinator.workerCount = numWorkers)
    (pool : engine.workers.length = numWorkers) (idle : engine.phase = .idle)
    (message : CoordinatorMessage Job) (now : Ticks) (hook : Outcome) :
    (engine.receive message now hook).work numWorkers + (!(message.isSilent &&
      !engine.coordinator.shuttingDown && engine.isSaturated &&
      engine.coordinator.aggressiveSweep)).toNat ≤
      engine.work numWorkers + message.work numWorkers := by
  have resting : engine.phase.work numWorkers = 0 := by rw [idle, Phase.work]
  have once (sent : Bool) : sent.toNat ≤ 1 := sent.toNat_le
  cases message with
  | shutDownQueues requester =>
    have told := work_broadcast engine.workers
    simp only [Engine.receive, Engine.work, CoordinatorMessage.work, CoordinatorMessage.isSilent,
      Bool.false_and, Bool.not_false, Bool.toNat_true]
    omega
  | queueShutDown =>
    simp only [Engine.receive]
    split <;> simp only [Engine.work, CoordinatorMessage.work, List.map_append, List.sum_append,
      List.map_cons, List.map_nil, List.sum_cons, List.sum_nil, LayerMessage.work, Phase.work,
      CoordinatorMessage.isSilent, Bool.false_and, Bool.not_false, Bool.toNat_true] <;>
      omega
  | jobSweep =>
    simp only [Engine.receive, CoordinatorMessage.work]
    have one := once (!(CoordinatorMessage.isSilent (.jobSweep : CoordinatorMessage Job) &&
      !engine.coordinator.shuttingDown && engine.isSaturated && engine.coordinator.aggressiveSweep))
    split
    · omega
    · have swept := work_handleSweep size idle false now hook
      omega
  | silentRetrySweep =>
    simp only [Engine.receive, CoordinatorMessage.work, CoordinatorMessage.isSilent, Bool.true_and]
    cases running : engine.coordinator.shuttingDown with
    | true =>
      simp only [↓reduceIte, Bool.not_true, Bool.false_and, Bool.not_false, Bool.toNat_true]
      omega
    | false => simpa using work_handleSweep size idle true now hook
  | jobSuceeded request | jobFailed request =>
    simp only [Engine.receive, work_handleResult, CoordinatorMessage.work,
      CoordinatorMessage.isSilent, Bool.false_and, Bool.not_false, Bool.toNat_true]
    omega
  | custom =>
    simp only [Engine.receive, CoordinatorMessage.work, CoordinatorMessage.isSilent,
      Bool.false_and, Bool.not_false, Bool.toNat_true]
    omega

private theorem work_failMissing {job : Job} {ticket : Nat} {rest : List (Job × Nat)}
    (looping : engine.phase = .queueing ((job, ticket) :: rest)) (hook : Outcome) :
    (engine.failMissing job ticket rest hook).work numWorkers < engine.work numWorkers := by
  simp only [Engine.failMissing, Engine.guarded, Engine.record, Engine.tellLayer, Engine.work,
    looping, Phase.work, List.map_append, List.sum_append, List.map_cons, List.map_nil,
    List.sum_cons, List.sum_nil, LayerMessage.work, List.length_cons]
  omega

omit [OddJobWithMetadata Job] in
private theorem work_dispatch {job : Job} {ticket index : Nat} {rest : List (Job × Nat)}
    {worker : JobWorker Job} (looping : engine.phase = .queueing ((job, ticket) :: rest))
    (routee : engine.workers[index]? = some worker) :
    (engine.dispatch job ticket rest index worker).work numWorkers < engine.work numWorkers := by
  have sent := List.sum_map_set JobWorker.work routee
    { worker with mailbox := worker.mailbox ++ [.executeJobRequest ⟨job, ticket⟩] }
  simp only [JobWorker.work, List.length_append, List.length_cons, List.length_nil] at sent
  simp only [Engine.dispatch, Engine.record, Engine.work, looping, Phase.work, List.length_cons]
  omega

private theorem work_tellInProgress {job : Job} {ticket : Nat} {rest : List (Job × Nat)}
    (marking : engine.phase = .marking job ticket rest) :
    (engine.tellInProgress job ticket rest).work numWorkers < engine.work numWorkers := by
  simp only [Engine.tellInProgress, Engine.tellLayer, Engine.work, marking, Phase.work,
    List.map_append, List.sum_append, List.map_cons, List.map_nil, List.sum_cons, List.sum_nil,
    LayerMessage.work]
  omega

omit [OddJobWithMetadata Job]

private theorem work_workerReceive {index : Nat} {worker : JobWorker Job}
    {message : WorkerMessage Job} {rest : List (WorkerMessage Job)}
    (found : engine.workers[index]? = some worker) (free : worker.running = none)
    (front : worker.mailbox = message :: rest) :
    (engine.workerReceive index worker message rest).work numWorkers <
      engine.work numWorkers := by
  cases message with
  | shutDownQueues =>
    have left := List.sum_map_set JobWorker.work found { worker with mailbox := rest }
    simp only [JobWorker.work, front, List.length_cons] at left
    simp only [Engine.workerReceive, Engine.work, List.map_append, List.sum_append, List.map_cons,
      List.map_nil, List.sum_cons, List.sum_nil, CoordinatorMessage.work]
    omega
  | executeJobRequest request =>
    have left := List.sum_map_set JobWorker.work found
      { mailbox := rest, running := some request }
    simp only [JobWorker.work, front, free, List.length_cons, Option.toList_none,
      Option.toList_some, List.length_nil] at left
    simp only [Engine.workerReceive, Engine.record, Engine.work]
    omega

private theorem work_workerFinish {index : Nat} {worker : JobWorker Job}
    {request : ExecuteJobRequest Job} (found : engine.workers[index]? = some worker)
    (busy : worker.running = some request) (outcome : Outcome) :
    (engine.workerFinish index worker request outcome).work numWorkers <
      engine.work numWorkers := by
  have left := List.sum_map_set JobWorker.work found { worker with running := none }
  simp only [JobWorker.work, busy, Option.toList_none, Option.toList_some, List.length_cons,
    List.length_nil] at left
  cases outcome <;>
    simp only [Engine.workerFinish, Engine.record, Engine.work, List.map_append, List.sum_append,
      List.map_cons, List.map_nil, List.sum_cons, List.sum_nil, CoordinatorMessage.work] <;>
    omega

private theorem work_layerReceive {message : LayerMessage} {rest : List LayerMessage}
    (free : engine.fetching = none) (front : engine.layer = message :: rest) :
    (engine.layerReceive message rest).work numWorkers < engine.work numWorkers := by
  cases message with
  | shutDownQueues =>
    cases phase : engine.phase <;>
      simp only [Engine.layerReceive, Engine.work, phase, front, Phase.work, List.map_cons,
        List.sum_cons, LayerMessage.work] <;> omega
  | getJobs request =>
    simp only [Engine.layerReceive, Engine.work, front, free, List.map_cons, List.sum_cons,
      LayerMessage.work, Option.toList_none, Option.toList_some, List.length_cons, List.length_nil]
    omega
  | command command =>
    simp only [Engine.layerReceive, Engine.work, front, List.map_cons, List.sum_cons,
      LayerMessage.work]
    omega

private theorem work_layerReply {request : GetJobs} (busy : engine.fetching = some request)
    {jobs : Option (List Job)} (within : ∀ batch, jobs = some batch → batch.length ≤ numWorkers) :
    (engine.layerReply request jobs).work numWorkers < engine.work numWorkers := by
  have lost (logged : Nat) :
      ({ engine with fetching := none, logged } : Engine Job).work numWorkers <
        engine.work numWorkers := by
    simp only [Engine.work, busy, Option.toList_none, Option.toList_some, List.length_cons,
      List.length_nil]
    omega
  cases jobs with
  | none => exact lost _
  | some batch =>
    simp only [Engine.layerReply]
    split
    · rename_i waiting asked
      split
      · have fits := within batch rfl
        simp only [Engine.work, busy, asked, Phase.work, List.length_zipIdx, Option.toList_none,
          Option.toList_some, List.length_cons, List.length_nil]
        omega
      · exact lost engine.logged
    · exact lost engine.logged

end Steps

/-- What a step is to the engine: something posted to it, a silent sweep that is sent
again, or work. -/
inductive Turn (Job : Type) where
  | posted (message : CoordinatorMessage Job)
  | resent
  | worked
  deriving DecidableEq

def Turn.cost : Turn Job → Nat
  | .worked => 1
  | .posted _ | .resent => 0

def Turn.credit (numWorkers : Nat) : Turn Job → Nat
  | .posted message => message.work numWorkers
  | .worked | .resent => 0

def Engine.turn (engine : Engine Job) (action : Action Job) (_ : Engine Job) : Option (Turn Job) :=
  match action with
  | .post message => some (.posted message)
  | other => some (if engine.resweeps other then .resent else .worked)

/-- The pool keeps the size it was configured with. -/
structure Sized (numWorkers : Nat) (engine : Engine Job) : Prop where
  size : engine.coordinator.workerCount = numWorkers
  pool : engine.workers.length = numWorkers

section Runs

variable [OddJobWithMetadata Job] {queueName : String} {numWorkers : Nat} {aggressiveSweep : Bool}
  {allowed : Engine Job → Action Job → Prop} {engine after : Engine Job} {action : Action Job}

theorem sized_of_reaches (reached : Reaches Engine.step allowed
    (Engine.configured queueName numWorkers aggressiveSweep) engine) : Sized numWorkers engine := by
  refine reached.invariant ⟨rfl, List.length_replicate⟩ ?_
  intro before action after valid _ taken
  obtain ⟨size, pool⟩ := valid
  cases moves_of_step taken with
  | saturated message rest extra state calls errors idle split sweep same =>
    exact ⟨same.workerCount.trans size, pool⟩
  | shutDown => exact ⟨size, by simpa using pool⟩
  | dispatched | workerDrained | started | finished =>
    exact ⟨size, by simpa [Engine.dispatch, Engine.workerReceive, Engine.workerFinish,
      Engine.record] using pool⟩
  | _ => exact ⟨size, pool⟩

private theorem work_of_receive (sized : Sized numWorkers engine) {index : Nat} {now : Ticks}
    {hook : Outcome} (taken : engine.step (.receive index now hook) = some after) :
    after.work numWorkers + (!engine.resweeps (.receive index now hook)).toNat ≤
      engine.work numWorkers := by
  simp only [Engine.step] at taken
  split at taken
  · rename_i message idle found
    cases taken
    let rest : Engine Job := { engine with mailbox := engine.mailbox.eraseIdx index }
    have left : rest.work numWorkers + message.work numWorkers = engine.work numWorkers :=
      work_taken found
    have received := @work_receive _ numWorkers rest _ sized.size sized.pool idle message now hook
    have same : engine.resweeps (.receive index now hook) = (message.isSilent &&
        !rest.coordinator.shuttingDown && rest.isSaturated &&
        rest.coordinator.aggressiveSweep) := by
      simp only [Engine.resweeps, found, Option.any_some]
      rfl
    rw [same, ← left]
    exact received
  · cases taken

private theorem work_of_next {index : Nat} {hook : Outcome}
    (taken : engine.step (.next index hook) = some after) :
    after.work numWorkers < engine.work numWorkers := by
  simp only [Engine.step] at taken
  split at taken
  · rename_i looping
    cases taken
    simp only [Engine.work, looping, Phase.work, List.length_nil]
    omega
  · rename_i job ticket rest looping
    split at taken
    · cases taken
      exact work_failMissing looping hook
    · obtain ⟨worker, routee, same⟩ := Option.map_eq_some_iff.mp taken
      exact same ▸ work_dispatch looping routee
  · cases taken

private theorem work_of_layer (bounded : Bounded numWorkers engine)
    (within : FetchesWithinSize engine action)
    (layer : action = .layerReceive ∨ ∃ jobs, action = .layerReply jobs)
    (taken : engine.step action = some after) :
    after.work numWorkers < engine.work numWorkers := by
  rcases layer with rfl | ⟨jobs, rfl⟩
  · simp only [Engine.step] at taken
    split at taken
    · rename_i free front
      cases taken
      exact work_layerReceive free front
    · cases taken
  · obtain ⟨request, busy, same⟩ := Option.map_eq_some_iff.mp taken
    refine same ▸ work_layerReply busy fun batch reply => ?_
    rw [← bounded.fetching request busy]
    exact within batch (reply ▸ rfl) request busy

private theorem work_of_worker {index : Nat}
    (worker : action = .workerReceive index ∨ ∃ outcome, action = .workerFinish index outcome)
    (taken : engine.step action = some after) :
    after.work numWorkers < engine.work numWorkers := by
  rcases worker with rfl | ⟨outcome, rfl⟩
  · simp only [Engine.step] at taken
    split at taken
    · rename_i worker found
      split at taken
      · rename_i free front
        cases taken
        exact work_workerReceive found free front
      · cases taken
    · cases taken
  · simp only [Engine.step] at taken
    split at taken
    · rename_i worker found
      obtain ⟨request, busy, same⟩ := Option.map_eq_some_iff.mp taken
      exact same ▸ work_workerFinish found busy outcome
    · cases taken

/-- A step of an actor lowers the work, unless it only sends a silent sweep again. -/
theorem work_of_step (sized : Sized numWorkers engine) (bounded : Bounded numWorkers engine)
    (within : FetchesWithinSize engine action) (own : ∀ message, action ≠ .post message)
    (taken : engine.step action = some after) :
    after.work numWorkers + (!engine.resweeps action).toNat ≤ engine.work numWorkers := by
  cases action with
  | post message => exact absurd rfl (own message)
  | receive index now hook => exact work_of_receive sized taken
  | askTimeout hook =>
    simp only [Engine.step] at taken
    split at taken
    · rename_i ask waiting
      cases taken
      simp only [Engine.guarded, Engine.work, waiting, Phase.work, Engine.resweeps, Bool.not_false,
        Bool.toNat_true]
      omega
    · cases taken
  | next index hook => exact work_of_next taken
  | tellInProgress =>
    simp only [Engine.step] at taken
    split at taken
    · rename_i marking
      cases taken
      exact work_tellInProgress marking
    · cases taken
  | acknowledge =>
    simp only [Engine.step] at taken
    split at taken
    · rename_i ready
      cases taken
      simp only [Engine.work, ready, Phase.work, Engine.resweeps, Bool.not_false, Bool.toNat_true]
      omega
    · cases taken
  | layerReceive => exact work_of_layer bounded within (.inl rfl) taken
  | layerReply jobs => exact work_of_layer bounded within (.inr ⟨jobs, rfl⟩) taken
  | workerReceive index => exact work_of_worker (.inl rfl) taken
  | workerFinish index outcome => exact work_of_worker (.inr ⟨outcome, rfl⟩) taken

/-- No livelock: whatever the order of steps, all that the actors do is paid for by what
was posted. Only silent sweeps that are sent again come free. -/
theorem Engine.worked_within_posted (workers : 1 ≤ numWorkers) {turns : List (Turn Job)}
    (reached : Reaches (observed Engine.step Engine.turn)
      (fun record action => FetchesWithinSize record.1 action)
      (Engine.configured queueName numWorkers aggressiveSweep, []) (engine, turns)) :
    (turns.map Turn.cost).sum + engine.work numWorkers ≤
      (turns.map (Turn.credit numWorkers)).sum := by
  have initial : (Engine.configured queueName numWorkers aggressiveSweep : Engine Job).work
      numWorkers = 0 := by
    simp [Engine.configured, Engine.work, JobWorker.work, Phase.work]
  rw [← Nat.zero_add (turns.map (Turn.credit numWorkers)).sum, ← initial]
  refine reached.amortized fun before action after earlier within taken => ?_
  cases action with
  | post message =>
    simp only [Engine.step] at taken
    split at taken
    · cases taken
      simp only [Pays, Engine.turn, Option.elim_some, Turn.cost, Turn.credit, Engine.work,
        List.map_append, List.sum_append, List.map_cons, List.map_nil, List.sum_cons, List.sum_nil]
      omega
    · cases taken
  | _ =>
    have lowered := work_of_step (sized_of_reaches earlier) (bounded_of_reaches workers earlier)
      within (by simp) taken
    simp only [Pays, Engine.turn, Option.elim_some]
    split <;> rename_i resent <;>
      simp only [resent, Bool.not_true, Bool.toNat_false, Bool.not_false, Bool.toNat_true,
        Turn.cost, Turn.credit] at lowered ⊢ <;> omega

end Runs

/-- No actor has anything to do. -/
structure Drained (engine : Engine Job) : Prop where
  idle : engine.phase = .idle
  mailbox : engine.mailbox = []
  workers : ∀ worker ∈ engine.workers, worker.mailbox = [] ∧ worker.running = none
  layer : engine.layer = []
  fetched : engine.fetching = none

def Phase.isIdle : Phase Job → Bool
  | .idle => true
  | _ => false

theorem Phase.isIdle_iff {phase : Phase Job} : phase.isIdle = true ↔ phase = .idle := by
  cases phase <;> simp [isIdle]

theorem drained_iff {engine : Engine Job} : Drained engine ↔ engine.phase.isIdle = true ∧
    engine.mailbox.isEmpty = true ∧
    (∀ worker ∈ engine.workers,
      worker.mailbox.isEmpty = true ∧ worker.running.isNone = true) ∧
    engine.layer.isEmpty = true ∧ engine.fetching.isNone = true := by
  simp only [Phase.isIdle_iff, List.isEmpty_iff, Option.isNone_iff_eq_none]
  constructor
  · intro drained
    exact ⟨drained.idle, drained.mailbox, drained.workers, drained.layer, drained.fetched⟩
  · rintro ⟨idle, mailbox, workers, layer, fetched⟩
    exact ⟨idle, mailbox, workers, layer, fetched⟩

instance (engine : Engine Job) : Decidable (Drained engine) :=
  decidable_of_iff _ drained_iff.symm

/-- The action is a step of one of the engine's actors that does some of its work. -/
structure Works [OddJobWithMetadata Job] (engine : Engine Job) (action : Action Job) : Prop where
  own : ∀ message, action ≠ .post message
  within : FetchesWithinSize engine action
  fresh : engine.resweeps action = false

section Drains

variable [OddJobWithMetadata Job] {queueName : String} {numWorkers : Nat} {aggressiveSweep : Bool}
  {engine : Engine Job}

/-- What keeps the actors going, whatever they have done so far. -/
structure Sound (numWorkers : Nat) (engine : Engine Job) : Prop where
  sized : Sized numWorkers engine
  balanced : Balanced engine
  flushes : Flushes engine

theorem sound_of_reaches {allowed : Engine Job → Action Job → Prop}
    (reached : Reaches Engine.step allowed
      (Engine.configured queueName numWorkers aggressiveSweep) engine) :
    Sound numWorkers engine :=
  ⟨sized_of_reaches reached, balanced_of_reaches reached, flushes_of_reaches reached⟩

private theorem works_of_busy (valid : Sound numWorkers engine) (workers : 1 ≤ numWorkers)
    (empty : engine.layer = []) (busy : engine.phase ≠ .idle) :
    ∃ action, Works engine action ∧ (engine.step action).isSome := by
  cases phase : engine.phase with
  | idle => exact absurd phase busy
  | awaitingJobs ask =>
    exact ⟨.askTimeout .returned, ⟨by simp, by simp [FetchesWithinSize], rfl⟩, by
      simp only [Engine.step, phase, Option.isSome_some]⟩
  | queueing rest =>
    have routed : ∃ worker, engine.workers[0]? = some worker :=
      ⟨_, List.getElem?_eq_getElem (valid.sized.pool ▸ workers)⟩
    obtain ⟨worker, found⟩ := routed
    have works : Works engine (.next 0 .returned) := ⟨by simp, by simp [FetchesWithinSize], rfl⟩
    cases rest with
    | nil => exact ⟨_, works, by simp only [Engine.step, phase, Option.isSome_some]⟩
    | cons entry rest =>
      cases missing : OddJobWithMetadata.typeMissing entry.1 with
      | true =>
        exact ⟨_, works, by
          simp only [Engine.step, phase, missing, ↓reduceIte, Option.isSome_some]⟩
      | false =>
        exact ⟨_, works, by
          simp only [Engine.step, phase, missing, Bool.false_eq_true, ↓reduceIte, found,
            Option.map_some, Option.isSome_some]⟩
  | marking job ticket rest =>
    exact ⟨.tellInProgress, ⟨by simp, by simp [FetchesWithinSize], rfl⟩, by
      simp only [Engine.step, phase, Option.isSome_some]⟩
  | awaitingStore =>
    obtain ⟨earlier, layer, _⟩ := valid.flushes.flushing phase
    simp [empty] at layer
  | acknowledging =>
    exact ⟨.acknowledge, ⟨by simp, by simp [FetchesWithinSize], rfl⟩, by
      simp only [Engine.step, phase, Option.isSome_some]⟩

private theorem works_of_worker {index : Nat} {worker : JobWorker Job}
    (found : engine.workers[index]? = some worker)
    (busy : ¬ (worker.mailbox = [] ∧ worker.running = none)) :
    ∃ action, Works engine action ∧ (engine.step action).isSome := by
  cases running : worker.running with
  | some request =>
    exact ⟨.workerFinish index .returned, ⟨by simp, by simp [FetchesWithinSize], rfl⟩, by
      simp only [Engine.step, found, running, Option.map_some, Option.isSome_some]⟩
  | none =>
    cases mailbox : worker.mailbox with
    | nil => exact absurd ⟨mailbox, running⟩ busy
    | cons message rest =>
      exact ⟨.workerReceive index, ⟨by simp, by simp [FetchesWithinSize], rfl⟩, by
        simp only [Engine.step, found, running, mailbox, Option.isSome_some]⟩

private theorem works_of_mailbox (valid : Sound numWorkers engine) (workers : 1 ≤ numWorkers)
    (idle : engine.phase = .idle) (resting : engine.waiting = [] ∧ engine.executing = [])
    (full : engine.mailbox ≠ []) :
    ∃ action, Works engine action ∧ (engine.step action).isSome := by
  have takes {index : Nat} {message : CoordinatorMessage Job}
      (found : engine.mailbox[index]? = some message)
      (fresh : engine.resweeps (.receive index 0 .returned) = false) :
      ∃ action, Works engine action ∧ (engine.step action).isSome :=
    ⟨.receive index 0 .returned, ⟨by simp, by simp [FetchesWithinSize], fresh⟩, by
      simp only [Engine.step, idle, found, Option.isSome_some]⟩
  cases results : engine.results with
  | nil =>
    have settled : engine.coordinator.pendingItems = 0 := by
      have located := valid.balanced.located
      have pending := valid.balanced.pending
      have counted : engine.uncounted = 0 := by simp only [Engine.uncounted, idle]
      rw [Engine.outstanding, resting.1, resting.2, results] at located
      simp only [List.length_nil] at located
      omega
    have below : engine.isSaturated = false := by
      have size := valid.sized.size
      simp only [Engine.isSaturated, settled, Bool.not_eq_false', decide_eq_true_eq]
      omega
    exact takes (List.getElem?_eq_getElem (List.length_pos_iff.mpr full))
      (by simp [Engine.resweeps, below])
  | cons result others =>
    have listed : result ∈ engine.results := by simp [results]
    obtain ⟨message, member, same⟩ := List.mem_filterMap.mp listed
    obtain ⟨index, found⟩ := List.mem_iff_getElem?.mp member
    have loud : message.isSilent = false := by cases message <;> first | rfl | cases same
    exact takes found (by simp [Engine.resweeps, found, loud])

/-- No deadlock: an engine that still has anything to do has an actor that can do it. -/
theorem Sound.works (valid : Sound numWorkers engine) (workers : 1 ≤ numWorkers)
    (undone : ¬ Drained engine) :
    ∃ action, Works engine action ∧ (engine.step action).isSome := by
  cases fetching : engine.fetching with
  | some request =>
    exact ⟨.layerReply none, ⟨by simp, by simp [FetchesWithinSize], rfl⟩, by
      simp only [Engine.step, fetching, Option.map_some, Option.isSome_some]⟩
  | none =>
    cases layer : engine.layer with
    | cons message rest =>
      exact ⟨.layerReceive, ⟨by simp, by simp [FetchesWithinSize], rfl⟩, by
        simp only [Engine.step, fetching, layer, Option.isSome_some]⟩
    | nil =>
      by_cases idle : engine.phase = .idle
      · by_cases free : ∀ worker ∈ engine.workers, worker.mailbox = [] ∧ worker.running = none
        · have resting : engine.waiting = [] ∧ engine.executing = [] := by
            constructor <;> apply List.flatMap_eq_nil_iff.mpr <;> intro worker member
            · rw [JobWorker.waiting, (free worker member).1]
              rfl
            · rw [(free worker member).2]
              rfl
          exact works_of_mailbox valid workers idle resting
            fun empty => undone ⟨idle, empty, free, layer, fetching⟩
        · obtain ⟨worker, member, busy⟩ : ∃ worker ∈ engine.workers,
              ¬ (worker.mailbox = [] ∧ worker.running = none) := by
            simpa only [not_forall, exists_prop] using free
          obtain ⟨index, found⟩ := List.mem_iff_getElem?.mp member
          exact works_of_worker found busy
      · exact works_of_busy valid workers layer idle

/-- A fetched job has been executed once and settled by the verdict of that execution, or it
has no type and has been failed. -/
def Engine.Settled (engine : Engine Job) (ticket : Nat) (job : Job) : Prop :=
  let id := OddJobWithMetadata.jobId job
  if OddJobWithMetadata.typeMissing job then
    engine.endingsFor ticket = [] ∧ engine.commandsFor ticket = [⟨.markJobFailed, id, ticket⟩]
  else ∃ outcome, ∃ mark : Mark, mark.Settles job outcome ∧ engine.endingsFor ticket = [outcome] ∧
    engine.commandsFor ticket = [⟨.markJobInProgress, id, ticket⟩, ⟨mark, id, ticket⟩]

/-- Every fetched job is settled, and the queue layer has been through all of it. -/
structure Finished (engine : Engine Job) : Prop where
  drained : Drained engine
  pending : engine.coordinator.pendingItems = 0
  processed : engine.processed = engine.commands
  settled : ∀ ticket job, engine.taken[ticket]? = some job → engine.Settled ticket job

omit [OddJobWithMetadata Job] in
private theorem Drained.resting (drained : Drained engine) :
    engine.waiting = [] ∧ engine.executing = [] ∧ engine.results = [] := by
  refine ⟨?_, ?_, ?_⟩
  · refine List.flatMap_eq_nil_iff.mpr fun worker member => ?_
    rw [JobWorker.waiting, (drained.workers worker member).1]
    rfl
  · refine List.flatMap_eq_nil_iff.mpr fun worker member => ?_
    rw [(drained.workers worker member).2]
    rfl
  · rw [Engine.results, drained.mailbox]
    rfl

theorem Drained.stuck (drained : Drained engine) {action : Action Job}
    (own : ∀ message, action ≠ .post message) : engine.step action = none := by
  have free {index : Nat} {worker : JobWorker Job} (found : engine.workers[index]? = some worker) :=
    drained.workers worker (List.mem_of_getElem? found)
  cases action with
  | post message => exact absurd rfl (own message)
  | receive => simp [Engine.step, drained.mailbox]
  | askTimeout | next | tellInProgress | acknowledge => simp [Engine.step, drained.idle]
  | layerReceive => simp [Engine.step, drained.fetched, drained.layer]
  | layerReply => simp [Engine.step, drained.fetched]
  | workerReceive index =>
    cases found : engine.workers[index]? with
    | none => simp [Engine.step, found]
    | some worker => simp [Engine.step, found, free found]
  | workerFinish index =>
    cases found : engine.workers[index]? with
    | none => simp [Engine.step, found]
    | some worker => simp [Engine.step, found, free found]

private theorem Drained.settled (drained : Drained engine) (told : Told engine)
    (tracked : Tracked engine) (balanced : Balanced engine) {ticket : Nat} {job : Job}
    (taken : engine.taken[ticket]? = some job) : engine.Settled ticket job := by
  obtain ⟨waiting, executing, results⟩ := drained.resting
  have sent := told.commands ticket job taken
  have endings := told.endings ticket
  have suits := tracked.suits ticket job taken
  have unmarked : engine.isMarking ticket = false := by simp only [Engine.isMarking, drained.idle]
  rw [unmarked] at sent
  have visited : engine.stage ticket ≠ .fetched := fun stage => by
    have queued := tracked.reached ticket (List.getElem?_eq_some_iff.mp taken).1 stage
    simp [Engine.queued, drained.idle] at queued
  have none : engine.unhandled = [] := by
    apply List.eq_nil_of_length_eq_zero
    rw [balanced.located, Engine.outstanding, waiting, executing, results]
    rfl
  unfold Engine.Settled
  unfold Stage.Suits at suits
  split
  · rename_i missing
    rw [missing, if_pos rfl] at suits
    obtain stage := suits.resolve_left visited
    rw [stage] at sent endings
    exact ⟨endings, sent⟩
  · rename_i typed
    rw [if_neg typed] at suits
    have requested := told.requests ticket job taken
    have closed : (engine.stage ticket).isHandled = true := by
      by_contra open_
      have listed : ⟨job, ticket⟩ ∈ engine.requestsFor ticket := by
        rw [requested]
        cases stage : engine.stage ticket <;> simp_all [Stage.requests]
      have left : (⟨job, ticket⟩ : ExecuteJobRequest Job) ∈ engine.unhandled :=
        List.mem_filter.mpr ⟨(List.mem_filter.mp listed).1, by simpa using open_⟩
      rw [none] at left
      cases left
    cases stage : engine.stage ticket with
    | handled outcome now =>
      rw [stage] at sent endings
      exact ⟨outcome, _, Engine.terminalMark_settles job outcome now, endings, sent⟩
    | _ => simp [stage, Stage.isHandled] at closed

theorem Drained.finished (drained : Drained engine) {allowed : Engine Job → Action Job → Prop}
    (reached : Reaches Engine.step allowed
      (Engine.configured queueName numWorkers aggressiveSweep) engine) : Finished engine := by
  have balanced := balanced_of_reaches reached
  obtain ⟨waiting, executing, results⟩ := drained.resting
  refine ⟨drained, ?_, ?_, fun ticket job taken => drained.settled (told_of_reaches reached)
    (tracked_of_reaches reached) balanced taken⟩
  · have located := balanced.located
    have pending := balanced.pending
    have counted : engine.uncounted = 0 := by simp only [Engine.uncounted, drained.idle]
    rw [Engine.outstanding, waiting, executing, results] at located
    simp only [List.length_nil] at located
    omega
  · have inOrder := inOrder_of_reaches reached
    rw [Engine.InOrder, Engine.unprocessed, drained.layer] at inOrder
    simpa using inOrder.symm

/-- No deadlock: when no actor can take a step any more, everything that was ever fetched is
settled, and nothing waits anywhere. -/
theorem Engine.finished_of_stuck (workers : 1 ≤ numWorkers)
    (reached : Reaches Engine.step anyAction
      (Engine.configured queueName numWorkers aggressiveSweep) engine)
    (stuck : ∀ action, (∀ message, action ≠ .post message) → engine.step action = none) :
    Finished engine := by
  refine Drained.finished ?_ reached
  by_contra undone
  obtain ⟨action, works, taken⟩ := (sound_of_reaches reached).works workers undone
  simp [stuck action works.own] at taken

/-- From wherever it is, the engine can be left alone to finish what it has. -/
theorem Engine.drains (workers : 1 ≤ numWorkers)
    (reached : Reaches Engine.step FetchesWithinSize
      (Engine.configured queueName numWorkers aggressiveSweep) engine) :
    ∃ final, Reaches Engine.step Works engine final ∧ Finished final := by
  refine exists_settled (Reaches Engine.step FetchesWithinSize
    (Engine.configured queueName numWorkers aggressiveSweep)) (Engine.work numWorkers) ?_ reached
  intro state earlier unfinished
  have sound := sound_of_reaches earlier
  have undone : ¬ Drained state := fun drained => unfinished (drained.finished earlier)
  obtain ⟨action, works, possible⟩ := sound.works workers undone
  obtain ⟨after, taken⟩ := Option.isSome_iff_exists.mp possible
  have lowered := work_of_step sound.sized (bounded_of_reaches workers earlier) works.within works.own taken
  rw [works.fresh] at lowered
  exact ⟨action, after, works, taken, .next earlier works.within taken, lowered⟩

end Drains

def drainedRun : List (Action (SqlDbOddJob Unit Unit)) :=
  sampleRun ++ [.layerReceive, .layerReceive]

theorem Engine.worked_within_posted_of_sample : ∃ engine turns,
    execute (fun record action => decide (FetchesWithinSize record.1 action))
      (observed Engine.step Engine.turn) (Engine.configured "default" 1 false, []) drainedRun =
        some (engine, turns) ∧
    (turns.map Turn.cost).sum = 11 ∧ (turns.map (Turn.credit 1)).sum = 12 ∧
    (turns.map Turn.cost).sum + engine.work 1 ≤ (turns.map (Turn.credit 1)).sum := by
  refine ⟨_, _, rfl, by decide, by decide, Engine.worked_within_posted (Nat.le_refl 1)
    (reaches_of_execute (fun _ _ => of_decide_eq_true)
      (rfl : execute (fun record action => decide (FetchesWithinSize record.1 action))
        (observed Engine.step Engine.turn) (Engine.configured "default" 1 false, []) drainedRun =
          some _))⟩

private theorem drained_of_sample : ∃ engine,
    execute (fun _ _ => true) Engine.step (Engine.configured "default" 1 false) drainedRun =
      some engine ∧
    engine.taken = [sampleJob] ∧ Drained engine := by
  refine ⟨_, rfl, by decide, rfl, rfl, ?_, rfl, rfl⟩
  decide

theorem Engine.finished_of_stuck_of_sample : ∃ engine,
    execute (fun _ _ => true) Engine.step (Engine.configured "default" 1 false) drainedRun =
      some engine ∧
    engine.taken = [sampleJob] ∧ Finished engine := by
  obtain ⟨engine, ran, taken, drained⟩ := drained_of_sample
  exact ⟨engine, ran, taken, Engine.finished_of_stuck (Nat.le_refl 1)
    (reaches_of_execute (fun _ _ _ => trivial) ran) fun _ own => drained.stuck own⟩

/-- Left alone with the job in its hands, the engine settles it. -/
theorem Engine.drains_of_sample : ∃ engine final,
    execute (fun engine action => decide (FetchesWithinSize engine action)) Engine.step
      (Engine.configured "default" 1 false) (sampleRun.take 6) = some engine ∧
    Reaches Engine.step Works engine final ∧ Finished final := by
  obtain ⟨final, later, finished⟩ := Engine.drains (Nat.le_refl 1)
    (reaches_of_execute (fun _ _ => of_decide_eq_true)
      (rfl : execute (fun engine action => decide (FetchesWithinSize engine action)) Engine.step
        (Engine.configured "default" 1 false) (sampleRun.take 6) = some _))
  exact ⟨_, final, rfl, later, finished⟩

end OddJob.Akka
