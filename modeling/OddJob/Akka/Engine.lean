import OddJob.Data
import Mathlib.Data.List.Basic

/-! One execution engine: a `JobQueueCoordinator`, the `JobWorkerActor`s of its
router pool and its `JobQueueLayerActor`, with the messages in flight between
them. Every actor step is one action, and the coordinator's blocking `Ask`s and
its `foreach` over a fetched batch are broken up, so that the other actors may
move between any two sends. -/

namespace OddJob.Akka

/-- How a call into code outside the engine ended: `ExecuteJob`, or an overridable hook. -/
inductive Outcome where
  | returned
  | threw
  deriving DecidableEq, Repr

/-- A command for one job. `ticket` is not part of the message: it remembers
which fetched job the coordinator was handling when it sent the command. -/
structure Command where
  mark : Mark
  jobId : Guid
  ticket : Nat
  deriving DecidableEq, Repr

/-- `ask` is the identity of the `Ask` that waits for the reply. -/
structure GetJobs where
  ask : Nat
  queueName : String
  fetchSize : Nat
  deriving DecidableEq, Repr

inductive LayerMessage where
  | shutDownQueues
  | getJobs (request : GetJobs)
  | command (command : Command)
  deriving DecidableEq, Repr

/-- `ticket` is the identity of the request object. -/
structure ExecuteJobRequest (Job : Type) where
  jobData : Job
  ticket : Nat
  deriving DecidableEq

inductive WorkerMessage (Job : Type) where
  | shutDownQueues
  | executeJobRequest (request : ExecuteJobRequest Job)
  deriving DecidableEq

inductive CoordinatorMessage (Job : Type) where
  | shutDownQueues (requester : Nat)
  | queueShutDown
  | jobSweep
  | silentRetrySweep
  | jobSuceeded (request : ExecuteJobRequest Job)
  | jobFailed (request : ExecuteJobRequest Job)
  | custom
  deriving DecidableEq

/-- Results reach the coordinator from its workers only, and silent sweeps and
shutdown replies from the engine itself. -/
def CoordinatorMessage.external : CoordinatorMessage Job → Bool
  | .shutDownQueues _ | .jobSweep | .custom => true
  | _ => false

def CoordinatorMessage.isResult : CoordinatorMessage Job → Bool
  | .jobSuceeded _ | .jobFailed _ => true
  | _ => false

/-- `ShutdownPriorityMailbox.PriorityGenerator` -/
def priorityGenerator : CoordinatorMessage Job → Int
  | .shutDownQueues _ => 0
  | _ => 1

structure JobQueueCoordinator where
  queueName : String
  workerCount : Nat
  aggressiveSweep : Bool
  shuttingDown : Bool := false
  shutdownCount : Nat := 0
  shutdownRequester : Option Nat := none
  pendingItems : Int := 0
  saturationStartTime : Option Ticks := none
  saturationPulseCount : Int := 0
  queueLifeSaturationPulseCount : Int := 0
  deriving DecidableEq

/-- Where the coordinator's thread is. Everything but `idle` is inside one `Receive`. -/
inductive Phase (Job : Type) where
  | idle
  /-- blocked in `Ask(new GetJobs(..))` -/
  | awaitingJobs (ask : Nat)
  /-- in `foreach (var job in jobsToQueue)`, before the first remaining job -/
  | queueing (rest : List (Job × Nat))
  /-- the request has been sent to a worker, `MarkJobInProgress` not yet -/
  | marking (job : Job) (ticket : Nat) (rest : List (Job × Nat))
  /-- blocked in `Ask(new ShutDownQueues())` -/
  | awaitingStore
  /-- about to tell the requester `QueueShutDown` -/
  | acknowledging
  deriving DecidableEq

structure JobWorker (Job : Type) where
  mailbox : List (WorkerMessage Job) := []
  running : Option (ExecuteJobRequest Job) := none
  deriving DecidableEq

/-- What has become of one fetched job. -/
inductive Stage where
  | fetched
  | missing
  | waiting
  | executing
  | executed (outcome : Outcome)
  | handled (outcome : Outcome) (now : Ticks)
  deriving DecidableEq, Repr

structure Engine (Job : Type) where
  coordinator : JobQueueCoordinator
  phase : Phase Job := .idle
  mailbox : List (CoordinatorMessage Job) := []
  workers : List (JobWorker Job)
  layer : List LayerMessage := []
  /-- the `GetJobs` the queue layer is working on -/
  fetching : Option GetJobs := none
  asks : Nat := 0
  /-- every job of every batch the coordinator took, by ticket -/
  taken : List Job := []
  stage : Nat → Stage := fun _ => .fetched
  requests : List (ExecuteJobRequest Job) := []
  /-- the calls of `ExecuteJob` -/
  began : List (ExecuteJobRequest Job) := []
  commands : List Command := []
  processed : List Command := []
  acknowledged : List Nat := []
  /-- the calls of `ExecuteJob` that ended -/
  ended : List (Nat × Outcome) := []
  /-- the calls of `OnJobQueueSaturated` -/
  saturated : List (Ticks × Int × Int) := []
  /-- errors logged for hooks and fetches that threw -/
  logged : Nat := 0

/-- The engine after `SetJobQueueConfiguration` has been answered with `Configured`. -/
def Engine.configured (queueName : String) (numWorkers : Nat) (aggressiveSweep : Bool) :
    Engine Job where
  coordinator := { queueName, workerCount := numWorkers, aggressiveSweep }
  workers := List.replicate numWorkers {}

namespace Engine

variable {Job : Type}

def record (engine : Engine Job) (ticket : Nat) (stage : Stage) : Engine Job :=
  { engine with stage := fun other => if other = ticket then stage else engine.stage other }

/-- `JobQueueActor.Tell` of a command. -/
def tellLayer (engine : Engine Job) (mark : Mark) (jobId : Guid) (ticket : Nat) : Engine Job :=
  { engine with
    layer := engine.layer ++ [.command ⟨mark, jobId, ticket⟩]
    commands := engine.commands ++ [⟨mark, jobId, ticket⟩] }

/-- `try { hook } catch { Log.Error }`: the engine goes on either way. -/
def guarded (engine : Engine Job) (hook : Outcome) : Engine Job :=
  { engine with
    logged := match hook with
      | .returned => engine.logged
      | .threw => engine.logged + 1 }

/-- `HandleSweep`, up to the `Ask` in the unsaturated case. -/
def handleSweep (engine : Engine Job) (silent : Bool) (now : Ticks) (hook : Outcome) : Engine Job :=
  let state := engine.coordinator
  if state.pendingItems < state.workerCount * 2 then
    { engine with
      coordinator := { state with saturationStartTime := none, saturationPulseCount := 0 }
      layer := engine.layer ++ [.getJobs ⟨engine.asks, state.queueName, state.workerCount⟩]
      asks := engine.asks + 1
      phase := .awaitingJobs engine.asks }
  else
    let swept :=
      if silent then engine
      else
        let start := state.saturationStartTime.getD now
        let pulses := wrapInt32 (state.saturationPulseCount + 1)
        let life := wrapInt64 (state.queueLifeSaturationPulseCount + 1)
        ({ engine with
          coordinator := { state with
            saturationStartTime := some start
            saturationPulseCount := pulses
            queueLifeSaturationPulseCount := life }
          saturated := engine.saturated ++ [(start, pulses, life)] } : Engine Job).guarded hook
    if state.aggressiveSweep then { swept with mailbox := swept.mailbox ++ [.silentRetrySweep] }
    else swept

variable [OddJobWithMetadata Job]

/-- `RetryParameters == null || MaxRetries <= RetryCount` -/
def exhausted (job : Job) : Bool :=
  match OddJobWithMetadata.retryParameters job with
  | none => true
  | some parameters => parameters.maxRetries ≤ parameters.retryCount

/-- The command that ends one execution of a job. -/
def terminalMark (job : Job) (outcome : Outcome) (now : Ticks) : Mark :=
  match outcome with
  | .returned => .markJobSuccess
  | .threw => if exhausted job then .markJobFailed else .markJobInRetryAndIncrement now

/-- The branches for `JobSuceeded` and `JobFailed`. -/
def handleResult (engine : Engine Job) (request : ExecuteJobRequest Job) (outcome : Outcome)
    (now : Ticks) (hook : Outcome) : Engine Job :=
  let counted := { engine with coordinator :=
    { engine.coordinator with pendingItems := engine.coordinator.pendingItems - 1 } }
  ((counted.tellLayer (terminalMark request.jobData outcome now)
    (OddJobWithMetadata.jobId request.jobData) request.ticket).record request.ticket
      (.handled outcome now)).guarded hook

/-- `JobQueueCoordinator.Receive` of a message already taken out of the mailbox. -/
def receive (engine : Engine Job) (message : CoordinatorMessage Job) (now : Ticks)
    (hook : Outcome) : Engine Job :=
  let state := engine.coordinator
  match message with
  | .shutDownQueues requester =>
    { engine with
      coordinator := { state with shutdownRequester := some requester, shuttingDown := true }
      workers := engine.workers.map fun worker =>
        { worker with mailbox := worker.mailbox ++ [.shutDownQueues] } }
  | .queueShutDown =>
    let counted := { engine with coordinator :=
      { state with shutdownCount := state.shutdownCount + 1, saturationPulseCount := 0 } }
    if state.shutdownCount + 1 = state.workerCount then
      { counted with layer := engine.layer ++ [.shutDownQueues], phase := .awaitingStore }
    else counted
  | .jobSweep => if state.shuttingDown then engine else engine.handleSweep false now hook
  | .silentRetrySweep => if state.shuttingDown then engine else engine.handleSweep true now hook
  | .jobSuceeded request => engine.handleResult request .returned now hook
  | .jobFailed request => engine.handleResult request .threw now hook
  | .custom => engine

/-- The body of the `foreach` for a job whose type is missing. -/
def failMissing (engine : Engine Job) (job : Job) (ticket : Nat) (rest : List (Job × Nat))
    (hook : Outcome) : Engine Job :=
  (({ engine with phase := .queueing rest }.tellLayer .markJobFailed
    (OddJobWithMetadata.jobId job) ticket).record ticket .missing).guarded hook

/-- `WorkerRouterRef.Tell(new ExecuteJobRequest(job))`, routed to one worker. -/
def dispatch (engine : Engine Job) (job : Job) (ticket : Nat) (rest : List (Job × Nat))
    (index : Nat) (worker : JobWorker Job) : Engine Job :=
  ({ engine with
    workers := engine.workers.set index
      { worker with mailbox := worker.mailbox ++ [.executeJobRequest ⟨job, ticket⟩] }
    requests := engine.requests ++ [⟨job, ticket⟩]
    phase := .marking job ticket rest } : Engine Job).record ticket .waiting

/-- `JobQueueActor.Tell(new MarkJobInProgress(..)); PendingItems = PendingItems + 1` -/
def tellInProgress (engine : Engine Job) (job : Job) (ticket : Nat) (rest : List (Job × Nat)) :
    Engine Job :=
  ({ engine with
    phase := .queueing rest
    coordinator :=
      { engine.coordinator with pendingItems := engine.coordinator.pendingItems + 1 }
    } : Engine Job).tellLayer .markJobInProgress (OddJobWithMetadata.jobId job) ticket

omit [OddJobWithMetadata Job]

/-- `JobWorkerActor.Receive` takes the next message; `RunJob` then executes a request. -/
def workerReceive (engine : Engine Job) (index : Nat) (worker : JobWorker Job)
    (message : WorkerMessage Job) (rest : List (WorkerMessage Job)) : Engine Job :=
  match message with
  | .shutDownQueues =>
    { engine with
      workers := engine.workers.set index { worker with mailbox := rest }
      mailbox := engine.mailbox ++ [.queueShutDown] }
  | .executeJobRequest request =>
    ({ engine with
      workers := engine.workers.set index { mailbox := rest, running := some request }
      began := engine.began ++ [request] } : Engine Job).record request.ticket .executing

/-- The end of `RunJob`: `JobSuceeded` when `ExecuteJob` returned, else `JobFailed`. -/
def workerFinish (engine : Engine Job) (index : Nat) (worker : JobWorker Job)
    (request : ExecuteJobRequest Job) (outcome : Outcome) : Engine Job :=
  ({ engine with
    workers := engine.workers.set index { worker with running := none }
    mailbox := engine.mailbox ++ [match outcome with
      | .returned => .jobSuceeded request
      | .threw => .jobFailed request]
    ended := engine.ended ++ [(request.ticket, outcome)]
    } : Engine Job).record request.ticket (.executed outcome)

/-- `JobQueueLayerActor.Receive` takes the next message. -/
def layerReceive (engine : Engine Job) (message : LayerMessage) (rest : List LayerMessage) :
    Engine Job :=
  match message with
  | .shutDownQueues =>
    { engine with
      layer := rest
      phase := match engine.phase with
        | .awaitingStore => .acknowledging
        | other => other }
  | .getJobs request => { engine with layer := rest, fetching := some request }
  | .command command =>
    { engine with layer := rest, processed := engine.processed ++ [command] }

/-- The queue layer's `GetJobs` ends: with a batch that is told to whoever asked,
or in an exception. A batch nobody waits for any more is lost. -/
def layerReply (engine : Engine Job) (request : GetJobs) (jobs : Option (List Job)) : Engine Job :=
  match jobs with
  | none => { engine with fetching := none, logged := engine.logged + 1 }
  | some batch =>
    match engine.phase with
    | .awaitingJobs waiting =>
      if waiting = request.ask then
        { engine with
          fetching := none
          taken := engine.taken ++ batch
          phase := .queueing (batch.zipIdx engine.taken.length) }
      else { engine with fetching := none }
    | _ => { engine with fetching := none }

end Engine

inductive Action (Job : Type) where
  /-- somebody outside the engine tells the coordinator something -/
  | post (message : CoordinatorMessage Job)
  | receive (index : Nat) (now : Ticks) (hook : Outcome)
  | askTimeout (hook : Outcome)
  | next (worker : Nat) (hook : Outcome)
  | tellInProgress
  | acknowledge
  | layerReceive
  | layerReply (jobs : Option (List Job))
  | workerReceive (worker : Nat)
  | workerFinish (worker : Nat) (outcome : Outcome)

variable {Job : Type} [OddJobWithMetadata Job]

/-- One action of one actor, refused where the actor cannot take it. The
coordinator may take any message of its mailbox: no order is assumed. -/
def Engine.step (engine : Engine Job) : Action Job → Option (Engine Job)
  | .post message =>
    if message.external then some { engine with mailbox := engine.mailbox ++ [message] } else none
  | .receive index now hook =>
    match engine.phase, engine.mailbox[index]? with
    | .idle, some message =>
      some ({ engine with mailbox := engine.mailbox.eraseIdx index }.receive message now hook)
    | _, _ => none
  | .askTimeout hook =>
    match engine.phase with
    | .awaitingJobs _ =>
      some ({ engine with phase := .idle, logged := engine.logged + 1 }.guarded hook)
    | _ => none
  | .next index hook =>
    match engine.phase with
    | .queueing [] => some { engine with phase := .idle }
    | .queueing ((job, ticket) :: rest) =>
      if OddJobWithMetadata.typeMissing job then some (engine.failMissing job ticket rest hook)
      else engine.workers[index]?.map fun worker => engine.dispatch job ticket rest index worker
    | _ => none
  | .tellInProgress =>
    match engine.phase with
    | .marking job ticket rest => some (engine.tellInProgress job ticket rest)
    | _ => none
  | .acknowledge =>
    match engine.phase with
    | .acknowledging =>
      some { engine with
        phase := .idle
        acknowledged := engine.acknowledged ++ engine.coordinator.shutdownRequester.toList }
    | _ => none
  | .layerReceive =>
    match engine.fetching, engine.layer with
    | none, message :: rest => some (engine.layerReceive message rest)
    | _, _ => none
  | .layerReply jobs =>
    engine.fetching.map fun request => engine.layerReply request jobs
  | .workerReceive index =>
    match engine.workers[index]? with
    | some worker =>
      match worker.running, worker.mailbox with
      | none, message :: rest => some (engine.workerReceive index worker message rest)
      | _, _ => none
    | none => none
  | .workerFinish index outcome =>
    match engine.workers[index]? with
    | some worker => worker.running.map fun request => engine.workerFinish index worker request outcome
    | none => none

end OddJob.Akka
