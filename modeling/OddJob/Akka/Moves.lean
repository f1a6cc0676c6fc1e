import OddJob.Akka.Engine
import OddJob.Lib.Transition
import Mathlib.Data.List.Perm.Basic

/-! What one action of the engine can do, said once. The invariants of the
engine are proved by cases on these moves and never unfold the step function. -/

namespace OddJob.Akka

variable {Job : Type} [OddJobWithMetadata Job]

/-- Only bookkeeping about saturation differs. -/
structure JobQueueCoordinator.SameAccounts (left right : JobQueueCoordinator) : Prop where
  pendingItems : left.pendingItems = right.pendingItems
  workerCount : left.workerCount = right.workerCount
  queueName : left.queueName = right.queueName
  shuttingDown : left.shuttingDown = right.shuttingDown
  shutdownCount : left.shutdownCount = right.shutdownCount
  shutdownRequester : left.shutdownRequester = right.shutdownRequester

/-- The action matters to the moves whose effect depends on what was received. -/
inductive Moves (engine : Engine Job) (action : Action Job) : Engine Job → Prop where
  | posted (message : CoordinatorMessage Job) (external : message.external = true)
      (sent : action = .post message) :
      Moves engine action { engine with mailbox := engine.mailbox ++ [message] }
  | ignored (message : CoordinatorMessage Job) (rest : List (CoordinatorMessage Job))
      (idle : engine.phase = .idle) (split : engine.mailbox.Perm (message :: rest))
      (kind : message.isResult = false ∧ message ≠ .queueShutDown ∧
        ∀ requester, message ≠ .shutDownQueues requester) :
      Moves engine action { engine with mailbox := rest }
  | shutDown (requester : Nat) (rest : List (CoordinatorMessage Job))
      (idle : engine.phase = .idle)
      (split : engine.mailbox.Perm (.shutDownQueues requester :: rest)) :
      Moves engine action { engine with
        mailbox := rest
        coordinator := { engine.coordinator with
          shutdownRequester := some requester, shuttingDown := true }
        workers := engine.workers.map fun worker =>
          { worker with mailbox := worker.mailbox ++ [.shutDownQueues] } }
  | replied (rest : List (CoordinatorMessage Job)) (idle : engine.phase = .idle)
      (split : engine.mailbox.Perm (.queueShutDown :: rest))
      (more : engine.coordinator.shutdownCount + 1 ≠ engine.coordinator.workerCount) :
      Moves engine action { engine with
        mailbox := rest
        coordinator := { engine.coordinator with
          shutdownCount := engine.coordinator.shutdownCount + 1, saturationPulseCount := 0 } }
  | lastReplied (rest : List (CoordinatorMessage Job)) (idle : engine.phase = .idle)
      (split : engine.mailbox.Perm (.queueShutDown :: rest))
      (all : engine.coordinator.shutdownCount + 1 = engine.coordinator.workerCount)
      (index : Nat) (now : Ticks) (hook : Outcome) (received : action = .receive index now hook)
      (last : engine.mailbox[index]? = some .queueShutDown) :
      Moves engine action { engine with
        mailbox := rest
        coordinator := { engine.coordinator with
          shutdownCount := engine.coordinator.shutdownCount + 1, saturationPulseCount := 0 }
        layer := engine.layer ++ [.shutDownQueues]
        phase := .awaitingStore }
  | asked (message : CoordinatorMessage Job) (rest : List (CoordinatorMessage Job))
      (idle : engine.phase = .idle) (split : engine.mailbox.Perm (message :: rest))
      (sweep : message = .jobSweep ∨ message = .silentRetrySweep)
      (running : engine.coordinator.shuttingDown = false)
      (unsaturated :
        engine.coordinator.pendingItems < engine.coordinator.workerCount * 2) :
      Moves engine action { engine with
        mailbox := rest
        coordinator := { engine.coordinator with
          saturationStartTime := none, saturationPulseCount := 0 }
        layer := engine.layer ++ [.getJobs ⟨engine.asks, engine.coordinator.queueName,
          engine.coordinator.workerCount⟩]
        asks := engine.asks + 1
        phase := .awaitingJobs engine.asks }
  | saturated (message : CoordinatorMessage Job) (rest extra : List (CoordinatorMessage Job))
      (state : JobQueueCoordinator) (calls : List (Ticks × Int × Int)) (errors : Nat)
      (idle : engine.phase = .idle) (split : engine.mailbox.Perm (message :: rest))
      (sweep : message = .jobSweep ∨ message = .silentRetrySweep)
      (same : state.SameAccounts engine.coordinator)
      (silent : ∀ sent ∈ extra, sent = .silentRetrySweep)
      (left : List (CoordinatorMessage Job)) (queue : left = rest ++ extra) :
      Moves engine action { engine with
        mailbox := left
        coordinator := state
        saturated := calls
        logged := errors }
  | resultHandled (request : ExecuteJobRequest Job) (outcome : Outcome) (now : Ticks)
      (hook : Outcome) (message : CoordinatorMessage Job) (rest : List (CoordinatorMessage Job))
      (idle : engine.phase = .idle) (split : engine.mailbox.Perm (message :: rest))
      (result : message = match outcome with
        | .returned => .jobSuceeded request
        | .threw => .jobFailed request) :
      Moves engine action ({ engine with mailbox := rest }.handleResult request outcome now hook)
  | timedOut (ask : Nat) (errors : Nat) (waiting : engine.phase = .awaitingJobs ask) :
      Moves engine action { engine with phase := .idle, logged := errors }
  | loopEnded (looping : engine.phase = .queueing []) :
      Moves engine action { engine with phase := .idle }
  | missingFailed (job : Job) (ticket : Nat) (rest : List (Job × Nat)) (hook : Outcome)
      (looping : engine.phase = .queueing ((job, ticket) :: rest))
      (missing : OddJobWithMetadata.typeMissing job = true) :
      Moves engine action (engine.failMissing job ticket rest hook)
  | dispatched (job : Job) (ticket : Nat) (rest : List (Job × Nat)) (index : Nat)
      (worker : JobWorker Job) (looping : engine.phase = .queueing ((job, ticket) :: rest))
      (typed : OddJobWithMetadata.typeMissing job = false)
      (routee : engine.workers[index]? = some worker) :
      Moves engine action (engine.dispatch job ticket rest index worker)
  | inProgressTold (job : Job) (ticket : Nat) (rest : List (Job × Nat))
      (marking : engine.phase = .marking job ticket rest) :
      Moves engine action (engine.tellInProgress job ticket rest)
  | acknowledged (requesters : List Nat) (ready : engine.phase = .acknowledging) :
      Moves engine action { engine with phase := .idle, acknowledged := requesters }
  | storeFlushed (rest : List LayerMessage) (free : engine.fetching = none)
      (front : engine.layer = .shutDownQueues :: rest) :
      Moves engine action (engine.layerReceive .shutDownQueues rest)
  | fetchStarted (request : GetJobs) (rest : List LayerMessage) (free : engine.fetching = none)
      (front : engine.layer = .getJobs request :: rest) :
      Moves engine action { engine with layer := rest, fetching := some request }
  | commandProcessed (command : Command) (rest : List LayerMessage)
      (free : engine.fetching = none) (front : engine.layer = .command command :: rest) :
      Moves engine action { engine with layer := rest, processed := engine.processed ++ [command] }
  | fetchLost (request : GetJobs) (errors : Nat) (busy : engine.fetching = some request) :
      Moves engine action { engine with fetching := none, logged := errors }
  | fetchDelivered (request : GetJobs) (batch : List Job)
      (busy : engine.fetching = some request)
      (waiting : engine.phase = .awaitingJobs request.ask)
      (reply : action = .layerReply (some batch)) :
      Moves engine action { engine with
        fetching := none
        taken := engine.taken ++ batch
        phase := .queueing (batch.zipIdx engine.taken.length) }
  | workerDrained (index : Nat) (worker : JobWorker Job) (rest : List (WorkerMessage Job))
      (found : engine.workers[index]? = some worker) (free : worker.running = none)
      (front : worker.mailbox = .shutDownQueues :: rest) :
      Moves engine action { engine with
        workers := engine.workers.set index { worker with mailbox := rest }
        mailbox := engine.mailbox ++ [.queueShutDown] }
  | started (index : Nat) (worker : JobWorker Job) (request : ExecuteJobRequest Job)
      (rest : List (WorkerMessage Job)) (found : engine.workers[index]? = some worker)
      (free : worker.running = none) (front : worker.mailbox = .executeJobRequest request :: rest) :
      Moves engine action (engine.workerReceive index worker (.executeJobRequest request) rest)
  | finished (index : Nat) (worker : JobWorker Job) (request : ExecuteJobRequest Job)
      (outcome : Outcome) (found : engine.workers[index]? = some worker)
      (busy : worker.running = some request) :
      Moves engine action (engine.workerFinish index worker request outcome)

private theorem split_eraseIdx {mailbox : List Message} {index : Nat}
    (found : mailbox[index]? = some message) : mailbox.Perm (message :: mailbox.eraseIdx index) := by
  obtain ⟨inside, same⟩ := List.getElem?_eq_some_iff.mp found
  subst same
  exact (List.getElem_cons_eraseIdx_perm inside).symm

private theorem moves_of_sweep {engine : Engine Job} {action : Action Job}
    {message : CoordinatorMessage Job}
    {rest : List (CoordinatorMessage Job)} (idle : engine.phase = .idle)
    (split : engine.mailbox.Perm (message :: rest))
    (sweep : message = .jobSweep ∨ message = .silentRetrySweep)
    (running : engine.coordinator.shuttingDown = false)
    (silent : Bool) (now : Ticks) (hook : Outcome) :
    Moves engine action ({ engine with mailbox := rest }.handleSweep silent now hook) := by
  by_cases unsaturated :
      engine.coordinator.pendingItems < engine.coordinator.workerCount * 2
  · simpa only [Engine.handleSweep, unsaturated, ↓reduceIte] using
      Moves.asked message rest idle split sweep running unsaturated
  · have one : ∀ sent ∈ ([.silentRetrySweep] : List (CoordinatorMessage Job)),
        sent = .silentRetrySweep := by simp
    have none : ∀ sent ∈ ([] : List (CoordinatorMessage Job)), sent = .silentRetrySweep := by simp
    cases silent <;> by_cases aggressive : engine.coordinator.aggressiveSweep = true
    all_goals
      simp only [Engine.handleSweep, unsaturated, aggressive, ↓reduceIte, Bool.false_eq_true,
        Engine.guarded]
    · refine .saturated message rest _ _ _ _ idle split sweep ?_ one _ rfl
      exact ⟨rfl, rfl, rfl, rfl, rfl, rfl⟩
    · refine .saturated message rest [] _ _ _ idle split sweep ?_ none _ (List.append_nil _).symm
      exact ⟨rfl, rfl, rfl, rfl, rfl, rfl⟩
    · refine .saturated message rest _ _ _ _ idle split sweep ?_ one _ rfl
      exact ⟨rfl, rfl, rfl, rfl, rfl, rfl⟩
    · refine .saturated message rest [] _ _ _ idle split sweep ?_ none _ (List.append_nil _).symm
      exact ⟨rfl, rfl, rfl, rfl, rfl, rfl⟩

private theorem moves_of_receive {engine : Engine Job} {message : CoordinatorMessage Job}
    {index : Nat} (idle : engine.phase = .idle) (found : engine.mailbox[index]? = some message)
    (now : Ticks) (hook : Outcome) :
    Moves engine (.receive index now hook)
      ({ engine with mailbox := engine.mailbox.eraseIdx index }.receive message now hook) := by
  have split := split_eraseIdx found
  generalize engine.mailbox.eraseIdx index = rest at split ⊢
  cases message with
  | shutDownQueues requester => exact .shutDown requester rest idle split
  | queueShutDown =>
    by_cases all : engine.coordinator.shutdownCount + 1 = engine.coordinator.workerCount
    · simpa only [Engine.receive, all, ↓reduceIte] using
        Moves.lastReplied rest idle split all index now hook rfl found
    · simpa only [Engine.receive, all, ↓reduceIte] using Moves.replied rest idle split all
  | jobSweep =>
    cases stopping : engine.coordinator.shuttingDown with
    | true =>
      simpa only [Engine.receive, stopping, ↓reduceIte] using
        Moves.ignored _ rest idle split (by simp [CoordinatorMessage.isResult])
    | false =>
      simpa only [Engine.receive, stopping, Bool.false_eq_true, ↓reduceIte] using
        moves_of_sweep idle split (.inl rfl) stopping false now hook
  | silentRetrySweep =>
    cases stopping : engine.coordinator.shuttingDown with
    | true =>
      simpa only [Engine.receive, stopping, ↓reduceIte] using
        Moves.ignored _ rest idle split (by simp [CoordinatorMessage.isResult])
    | false =>
      simpa only [Engine.receive, stopping, Bool.false_eq_true, ↓reduceIte] using
        moves_of_sweep idle split (.inr rfl) stopping true now hook
  | jobSuceeded request => exact .resultHandled request .returned now hook _ rest idle split rfl
  | jobFailed request => exact .resultHandled request .threw now hook _ rest idle split rfl
  | custom => exact .ignored _ rest idle split (by simp [CoordinatorMessage.isResult])

private theorem moves_of_reply {engine : Engine Job} {request : GetJobs}
    (busy : engine.fetching = some request) (jobs : Option (List Job)) :
    Moves engine (.layerReply jobs) (engine.layerReply request jobs) := by
  cases jobs with
  | none => exact .fetchLost request _ busy
  | some batch =>
    simp only [Engine.layerReply]
    split
    · rename_i waiting asked
      by_cases same : waiting = request.ask
      · subst same
        simpa only [↓reduceIte] using Moves.fetchDelivered request batch busy asked rfl
      · simpa only [same, ↓reduceIte] using Moves.fetchLost request engine.logged busy
    · exact .fetchLost request engine.logged busy

/-- Every step of the engine is one of the moves. -/
theorem moves_of_step {engine after : Engine Job} {action : Action Job}
    (taken : engine.step action = some after) : Moves engine action after := by
  cases action with
  | post message =>
    simp only [Engine.step] at taken
    split at taken
    · cases taken
      exact .posted message ‹_› rfl
    · cases taken
  | receive index now hook =>
    simp only [Engine.step] at taken
    split at taken
    · cases taken
      exact moves_of_receive ‹_› ‹_› now hook
    · cases taken
  | askTimeout hook =>
    simp only [Engine.step] at taken
    split at taken
    · cases taken
      exact .timedOut _ _ ‹_›
    · cases taken
  | next index hook =>
    simp only [Engine.step] at taken
    split at taken
    · cases taken
      exact .loopEnded ‹_›
    · rename_i job ticket rest looping
      cases missing : OddJobWithMetadata.typeMissing job with
      | true =>
        simp only [missing, ↓reduceIte, Option.some.injEq] at taken
        exact taken ▸ .missingFailed job ticket rest hook looping missing
      | false =>
        simp only [missing, Bool.false_eq_true, ↓reduceIte] at taken
        obtain ⟨worker, routee, same⟩ := Option.map_eq_some_iff.mp taken
        exact same ▸ .dispatched job ticket rest index worker looping missing routee
    · cases taken
  | tellInProgress =>
    simp only [Engine.step] at taken
    split at taken
    · cases taken
      exact .inProgressTold _ _ _ ‹_›
    · cases taken
  | acknowledge =>
    simp only [Engine.step] at taken
    split at taken
    · cases taken
      exact .acknowledged _ ‹_›
    · cases taken
  | layerReceive =>
    simp only [Engine.step] at taken
    split at taken
    · rename_i message rest free front
      cases taken
      cases message with
      | shutDownQueues => exact .storeFlushed rest free front
      | getJobs request => exact .fetchStarted request rest free front
      | command command => exact .commandProcessed command rest free front
    · cases taken
  | layerReply jobs =>
    obtain ⟨request, busy, same⟩ := Option.map_eq_some_iff.mp taken
    exact same ▸ moves_of_reply busy jobs
  | workerReceive index =>
    simp only [Engine.step] at taken
    split at taken
    · rename_i worker found
      split at taken
      · rename_i message rest free front
        cases taken
        cases message with
        | shutDownQueues => exact .workerDrained index worker rest found free front
        | executeJobRequest request => exact .started index worker request rest found free front
      · cases taken
    · cases taken
  | workerFinish index outcome =>
    simp only [Engine.step] at taken
    split at taken
    · rename_i worker found
      obtain ⟨request, busy, same⟩ := Option.map_eq_some_iff.mp taken
      exact same ▸ .finished index worker request outcome found busy
    · cases taken

end OddJob.Akka
