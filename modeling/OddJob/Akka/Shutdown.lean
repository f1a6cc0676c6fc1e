import OddJob.Akka.Pending

/-! Shutdown. After one `ShutDownQueues` every worker replies once, after the last
request it was sent; what the coordinator's mailbox does not promise is that the
reply comes out after the result of that request. -/

namespace OddJob.Akka

variable {Job : Type}

def WorkerMessage.isStop : WorkerMessage Job → Bool
  | .shutDownQueues => true
  | .executeJobRequest _ => false

def CoordinatorMessage.isStop : CoordinatorMessage Job → Bool
  | .shutDownQueues _ => true
  | _ => false

def CoordinatorMessage.isReply : CoordinatorMessage Job → Bool
  | .queueShutDown => true
  | _ => false

/-- The worker still has to reply, and nothing is behind that; or it has replied and is done. -/
def JobWorker.Stopping (worker : JobWorker Job) : Prop :=
  (∃ requests : List (ExecuteJobRequest Job),
    worker.mailbox = requests.map .executeJobRequest ++ [.shutDownQueues]) ∨
  (worker.mailbox = [] ∧ worker.running = none)

theorem JobWorker.Stopping.rest {worker : JobWorker Job} {message : WorkerMessage Job}
    {rest : List (WorkerMessage Job)} (stopping : worker.Stopping)
    (front : worker.mailbox = message :: rest) :
    (message = .shutDownQueues ∧ rest = []) ∨
      ∃ requests : List (ExecuteJobRequest Job),
        rest = requests.map .executeJobRequest ++ [.shutDownQueues] := by
  rcases stopping with ⟨requests, mailbox⟩ | ⟨empty, _⟩
  · rw [front] at mailbox
    cases requests with
    | nil => exact .inl (List.cons.inj mailbox)
    | cons first others => exact .inr ⟨others, (List.cons.inj mailbox).2⟩
  · rw [front] at empty
    cases empty

namespace Engine

/-- The `ShutDownQueues` that workers have not taken yet. -/
def stops (engine : Engine Job) : List (WorkerMessage Job) :=
  engine.workers.flatMap fun worker => worker.mailbox.filter WorkerMessage.isStop

/-- The replies that the coordinator has not taken yet. -/
def replies (engine : Engine Job) : List (CoordinatorMessage Job) :=
  engine.mailbox.filter CoordinatorMessage.isReply

/-- Requests for a shutdown, taken or not. -/
def shutdowns (engine : Engine Job) : Nat :=
  (engine.mailbox.filter CoordinatorMessage.isStop).length +
    engine.coordinator.shuttingDown.toNat

/-- The coordinator has begun to close the queue layer. -/
def isClosing (engine : Engine Job) : Bool :=
  match engine.phase with
  | .awaitingStore | .acknowledging => true
  | _ => false

end Engine

/-- A coordinator that shuts down waits for messages or closes the queue layer. -/
def Quiet (engine : Engine Job) : Prop :=
  engine.coordinator.shuttingDown = true → engine.phase = .idle ∨ engine.isClosing = true

theorem Quiet.running {engine : Engine Job} (quiet : Quiet engine) (busy : engine.phase ≠ .idle)
    (open_ : engine.isClosing = false) : engine.coordinator.shuttingDown = false := by
  rw [← Bool.not_eq_true]
  intro stopping
  rcases quiet stopping with idle | closing
  · exact busy idle
  · exact absurd (open_.symm.trans closing) (by simp)

theorem Quiet.moves [OddJobWithMetadata Job] {engine after : Engine Job} {action : Action Job}
    (quiet : Quiet engine) (move : Moves engine action after) : Quiet after := by
  cases move with
  | posted | ignored | replied | fetchStarted | commandProcessed | fetchLost | workerDrained
  | started | finished => exact quiet
  | shutDown requester rest idle => exact fun _ => .inl idle
  | resultHandled request outcome now hook message rest idle => exact fun _ => .inl idle
  | lastReplied => exact fun _ => .inr rfl
  | timedOut | loopEnded | acknowledged => exact fun _ => .inl rfl
  | asked message rest idle split sweep running =>
    exact fun stopping => absurd (running.symm.trans stopping) (by simp)
  | saturated message rest extra state calls errors idle split sweep same =>
    exact fun _ => .inl idle
  | missingFailed job ticket rest hook phase | inProgressTold job ticket rest phase
  | dispatched job ticket rest index worker phase | fetchDelivered request batch busy phase =>
    have running := quiet.running (by simp [phase]) (by simp only [Engine.isClosing, phase])
    exact fun stopping => absurd (running.symm.trans stopping) (by simp)
  | storeFlushed rest free front =>
    intro stopping
    rcases quiet stopping with idle | closing
    · exact .inl (by simp only [Engine.layerReceive, idle])
    · right
      cases phase : engine.phase <;> simp_all [Engine.isClosing, Engine.layerReceive]

theorem quiet_of_reaches [OddJobWithMetadata Job] {queueName : String} {numWorkers : Nat}
    {aggressiveSweep : Bool} {allowed : Engine Job → Action Job → Prop} {engine : Engine Job}
    (reached : Transition.Reaches Engine.step allowed
      (Engine.configured queueName numWorkers aggressiveSweep) engine) : Quiet engine :=
  reached.invariant (fun stopping => by cases stopping)
    fun _ _ _ quiet _ taken => quiet.moves (moves_of_step taken)

/-- Nobody asks for a second shutdown. -/
def ShutsDownOnce (engine : Engine Job) (action : Action Job) : Prop :=
  ∀ requester, action = .post (.shutDownQueues requester) → engine.shutdowns = 0

/-- The last reply is taken out of the mailbox only when no result is left in it. -/
def TakesResultsFirst (engine : Engine Job) (action : Action Job) : Prop :=
  ∀ index now hook, action = .receive index now hook →
    engine.mailbox[index]? = some .queueShutDown →
    engine.coordinator.shutdownCount + 1 = engine.coordinator.workerCount →
    ∀ message ∈ engine.mailbox, message.isResult = false

/-- `UnboundedPriorityMailbox`: no message overtakes one of a lower priority value. -/
def RespectsPriority (engine : Engine Job) (action : Action Job) : Prop :=
  ∀ index now hook, action = .receive index now hook →
    ∀ message, engine.mailbox[index]? = some message →
      ∀ other ∈ engine.mailbox, priorityGenerator message ≤ priorityGenerator other

/-- The queue layer is told to close last. -/
structure Flushes (engine : Engine Job) : Prop where
  flushing : engine.phase = .awaitingStore → ∃ earlier,
    engine.layer = earlier ++ [.shutDownQueues] ∧ .shutDownQueues ∉ earlier
  flushed : engine.phase = .acknowledging → engine.layer = []
  unstopped : engine.phase ≠ .awaitingStore → .shutDownQueues ∉ engine.layer

private theorem Flushes.transfer {engine after : Engine Job} (valid : Flushes engine)
    (phase : after.phase = engine.phase) (layer : after.layer = engine.layer) : Flushes after := by
  constructor
  · rw [phase, layer]
    exact valid.flushing
  · rw [phase, layer]
    exact valid.flushed
  · rw [phase, layer]
    exact valid.unstopped

private theorem Flushes.append {engine after : Engine Job} (valid : Flushes engine)
    {extra : List LayerMessage} (before : engine.phase ≠ .awaitingStore)
    (later : after.phase ≠ .awaitingStore ∧ after.phase ≠ .acknowledging)
    (layer : after.layer = engine.layer ++ extra) (other : .shutDownQueues ∉ extra) :
    Flushes after := by
  refine ⟨fun phase => absurd phase later.1, fun phase => absurd phase later.2, fun _ => ?_⟩
  rw [layer, List.mem_append]
  exact fun member => member.elim (valid.unstopped before) other

private theorem Flushes.pop {engine after : Engine Job} (valid : Flushes engine)
    {message : LayerMessage} {rest : List LayerMessage} (front : engine.layer = message :: rest)
    (other : message ≠ .shutDownQueues) (phase : after.phase = engine.phase)
    (layer : after.layer = rest) : Flushes after := by
  refine ⟨fun waiting => ?_, fun ready => ?_, fun open_ => ?_⟩
  · obtain ⟨earlier, split, absent⟩ := valid.flushing (phase ▸ waiting)
    rw [front] at split
    cases earlier with
    | nil =>
      rw [List.nil_append] at split
      exact absurd (List.cons.inj split).1 other
    | cons head tail =>
      obtain ⟨_, same⟩ := List.cons.inj split
      exact ⟨tail, layer.trans same, fun member => absent (List.mem_cons_of_mem _ member)⟩
  · have empty := valid.flushed (phase ▸ ready)
    rw [front] at empty
    cases empty
  · have absent := valid.unstopped (phase ▸ open_)
    rw [front] at absent
    rw [layer]
    exact fun member => absent (List.mem_cons_of_mem _ member)

theorem Flushes.moves [OddJobWithMetadata Job] {engine after : Engine Job} {action : Action Job}
    (valid : Flushes engine) (move : Moves engine action after) : Flushes after := by
  cases move with
  | posted | ignored | shutDown | replied | saturated | fetchLost | workerDrained | started
  | finished => exact valid.transfer rfl rfl
  | lastReplied rest idle split all _ _ _ _ _ =>
    refine ⟨fun _ => ⟨engine.layer, rfl, valid.unstopped (by simp [idle])⟩, by simp, by simp⟩
  | asked message rest idle => exact valid.append (by simp [idle]) (by simp) rfl (by simp)
  | resultHandled request outcome now hook message rest idle =>
    refine valid.append (by simp [idle]) ?_ rfl (by simp)
    simp [Engine.handleResult, Engine.guarded, Engine.record, Engine.tellLayer, idle]
  | timedOut ask errors phase | loopEnded phase | dispatched job ticket rest index worker phase
  | fetchDelivered request batch busy phase =>
    exact valid.append (by simp [phase]) (by simp [Engine.dispatch, Engine.record])
      (List.append_nil _).symm (by simp)
  | missingFailed job ticket rest hook phase | inProgressTold job ticket rest phase =>
    refine valid.append (by simp [phase]) ?_ rfl (by simp)
    simp [Engine.failMissing, Engine.guarded, Engine.record, Engine.tellLayer,
      Engine.tellInProgress]
  | acknowledged requesters ready =>
    exact valid.append (by simp [ready]) (by simp) (List.append_nil _).symm (by simp)
  | storeFlushed rest free front =>
    by_cases waiting : engine.phase = .awaitingStore
    · obtain ⟨earlier, split, absent⟩ := valid.flushing waiting
      rw [front] at split
      cases earlier with
      | nil =>
        obtain rfl : rest = [] := (List.cons.inj split).2
        exact ⟨by simp [Engine.layerReceive, waiting], fun _ => rfl, fun _ => by
          simp [Engine.layerReceive]⟩
      | cons head tail =>
        obtain ⟨same, _⟩ := List.cons.inj split
        exact absurd (same ▸ List.mem_cons_self) absent
    · have absent := valid.unstopped waiting
      rw [front] at absent
      exact absurd List.mem_cons_self absent
  | fetchStarted request rest free front => exact valid.pop front (by simp) rfl rfl
  | commandProcessed command rest free front => exact valid.pop front (by simp) rfl rfl

/-- Where the replies to one shutdown are, and that no request comes after it. -/
structure Stops (numWorkers : Nat) (engine : Engine Job) : Prop where
  size : engine.coordinator.workerCount = numWorkers
  pool : engine.workers.length = numWorkers
  once : engine.shutdowns ≤ 1
  replies : engine.stops.length + engine.replies.length + engine.coordinator.shutdownCount =
    if engine.coordinator.shuttingDown then numWorkers else 0
  stopping : engine.coordinator.shuttingDown = true → ∀ worker ∈ engine.workers, worker.Stopping
  quiet : Quiet engine
  closing : engine.isClosing = true → engine.coordinator.shuttingDown = true ∧
    engine.coordinator.shutdownCount = numWorkers

theorem stops_configured (queueName : String) (numWorkers : Nat) (aggressiveSweep : Bool) :
    Stops numWorkers (Engine.configured queueName numWorkers aggressiveSweep : Engine Job) where
  size := rfl
  pool := by simp [Engine.configured]
  once := Nat.zero_le 1
  replies := by simp [Engine.configured, Engine.stops, Engine.replies]
  stopping stopping := by cases stopping
  quiet stopping := by cases stopping
  closing closing := by cases closing

namespace Stops

variable {numWorkers : Nat} {engine after : Engine Job}

theorem not_stopped (valid : Stops numWorkers engine)
    (running : engine.coordinator.shuttingDown = false) : engine.stops = [] := by
  have none := valid.replies
  simp only [running, Bool.false_eq_true, ↓reduceIte] at none
  exact List.eq_nil_of_length_eq_zero (by omega)

/-- Once every reply has been counted, the workers have nothing left to do. -/
theorem drained (valid : Stops numWorkers engine)
    (stopping : engine.coordinator.shuttingDown = true) (none : engine.stops = []) :
    engine.waiting = [] ∧ engine.executing = [] := by
  have done (worker : JobWorker Job) (member : worker ∈ engine.workers) :
      worker.mailbox = [] ∧ worker.running = .none := by
    rcases valid.stopping stopping worker member with ⟨requests, mailbox⟩ | done
    · have stop : WorkerMessage.shutDownQueues ∈ worker.mailbox.filter WorkerMessage.isStop := by
        simp [mailbox, WorkerMessage.isStop]
      have absent := List.flatMap_eq_nil_iff.mp none worker member
      rw [absent] at stop
      cases stop
    · exact done
  constructor
  · apply List.flatMap_eq_nil_iff.mpr
    intro worker member
    rw [JobWorker.waiting, (done worker member).1]
    rfl
  · apply List.flatMap_eq_nil_iff.mpr
    intro worker member
    rw [(done worker member).2]
    rfl

private theorem transfer (valid : Stops numWorkers engine)
    (size : after.coordinator.workerCount = engine.coordinator.workerCount)
    (shutting : after.coordinator.shuttingDown = engine.coordinator.shuttingDown)
    (count : after.coordinator.shutdownCount = engine.coordinator.shutdownCount)
    (workers : after.workers = engine.workers)
    (replies : after.replies.length = engine.replies.length) (once : after.shutdowns ≤ 1)
    (quiet : Quiet after)
    (closing : after.isClosing = true → engine.isClosing = true) : Stops numWorkers after := by
  have stops : after.stops = engine.stops := by rw [Engine.stops, Engine.stops, workers]
  constructor
  · exact size.trans valid.size
  · rw [workers]
    exact valid.pool
  · exact once
  · rw [stops, replies, count, shutting]
    exact valid.replies
  · rw [shutting, workers]
    exact valid.stopping
  · exact quiet
  · rw [shutting, count]
    exact fun closed => valid.closing (closing closed)

private theorem worked (valid : Stops numWorkers engine) {index : Nat} {old new : JobWorker Job}
    (found : engine.workers[index]? = some old)
    (coordinator : after.coordinator = engine.coordinator)
    (workers : after.workers = engine.workers.set index new)
    (phase : after.phase = engine.phase)
    (replies : after.stops.length + after.replies.length =
      engine.stops.length + engine.replies.length)
    (shutdowns : after.shutdowns = engine.shutdowns)
    (stopping : old.Stopping → new.Stopping) : Stops numWorkers after := by
  have closed : after.isClosing = engine.isClosing := by
    rw [Engine.isClosing, Engine.isClosing, phase]
  constructor
  · rw [coordinator]
    exact valid.size
  · rw [workers, List.length_set]
    exact valid.pool
  · rw [shutdowns]
    exact valid.once
  · rw [replies, coordinator]
    exact valid.replies
  · rw [coordinator, workers]
    intro shutting worker member
    rcases List.mem_or_eq_of_mem_set member with older | same
    · exact valid.stopping shutting worker older
    · exact same ▸ stopping (valid.stopping shutting old (List.mem_of_getElem? found))
  · rw [Quiet, coordinator, phase, closed]
    exact valid.quiet
  · rw [coordinator, closed]
    exact valid.closing

end Stops

private theorem filter_length_of_split {Message : Type} {mailbox rest : List Message}
    {message : Message} (split : mailbox.Perm (message :: rest)) (kind : Message → Bool) :
    (mailbox.filter kind).length = (rest.filter kind).length + (kind message).toNat := by
  rw [(split.filter kind).length_eq, List.filter_cons]
  cases kind message <;> simp

private theorem Stops.once_of_split {numWorkers : Nat} {engine : Engine Job}
    (valid : Stops numWorkers engine) {message : CoordinatorMessage Job}
    {rest : List (CoordinatorMessage Job)} (split : engine.mailbox.Perm (message :: rest))
    (stop : message.isStop = false) :
    (rest.filter CoordinatorMessage.isStop).length + engine.coordinator.shuttingDown.toNat ≤ 1 := by
  have stops := filter_length_of_split split CoordinatorMessage.isStop
  have once := valid.once
  rw [stop] at stops
  rw [Engine.shutdowns, stops] at once
  exact once

private theorem replies_of_split {engine : Engine Job} {message : CoordinatorMessage Job}
    {rest : List (CoordinatorMessage Job)} (split : engine.mailbox.Perm (message :: rest))
    (reply : message.isReply = false) :
    (rest.filter CoordinatorMessage.isReply).length = engine.replies.length := by
  have replies := filter_length_of_split split CoordinatorMessage.isReply
  rw [reply] at replies
  exact replies.symm

private theorem Stops.reply_counted {numWorkers : Nat} {engine : Engine Job}
    (valid : Stops numWorkers engine) {rest : List (CoordinatorMessage Job)}
    (split : engine.mailbox.Perm (.queueShutDown :: rest)) :
    engine.stops.length + (rest.filter CoordinatorMessage.isReply).length +
      (engine.coordinator.shutdownCount + 1) =
        if engine.coordinator.shuttingDown then numWorkers else 0 := by
  have taken : engine.replies.length = (rest.filter CoordinatorMessage.isReply).length + 1 :=
    filter_length_of_split split CoordinatorMessage.isReply
  rw [← valid.replies, taken]
  omega

private theorem plain_of_sweep {message : CoordinatorMessage Job}
    (sweep : message = .jobSweep ∨ message = .silentRetrySweep) :
    message.isStop = false ∧ message.isReply = false := by
  rcases sweep with same | same <;> subst same <;> exact ⟨rfl, rfl⟩

private theorem stops_broadcast {workers : List (JobWorker Job)}
    (quiet : ∀ worker ∈ workers, worker.mailbox.filter WorkerMessage.isStop = []) :
    ((workers.map fun worker => ({ worker with
      mailbox := worker.mailbox ++ [.shutDownQueues] } : JobWorker Job)).flatMap
        fun worker => worker.mailbox.filter WorkerMessage.isStop).length = workers.length := by
  induction workers with
  | nil => rfl
  | cons head tail ih =>
    have first := quiet head List.mem_cons_self
    have others := ih fun worker member => quiet worker (List.mem_cons_of_mem _ member)
    have one : ([.shutDownQueues] : List (WorkerMessage Job)).filter WorkerMessage.isStop =
      [.shutDownQueues] := rfl
    simp only [List.map_cons, List.flatMap_cons, List.filter_append, first, one,
      List.length_append, others, List.length_cons, List.length_nil]
    omega

private theorem requests_of_unstopped {mailbox : List (WorkerMessage Job)}
    (quiet : mailbox.filter WorkerMessage.isStop = []) :
    ∃ requests : List (ExecuteJobRequest Job), mailbox = requests.map .executeJobRequest := by
  induction mailbox with
  | nil => exact ⟨[], rfl⟩
  | cons head tail ih =>
    cases head with
    | shutDownQueues => simp [WorkerMessage.isStop] at quiet
    | executeJobRequest request =>
      obtain ⟨requests, same⟩ := ih (by simpa [WorkerMessage.isStop] using quiet)
      exact ⟨request :: requests, by rw [same]; rfl⟩

private theorem Stops.shutDown {numWorkers : Nat} {engine : Engine Job}
    (valid : Stops numWorkers engine) (requester : Nat) {rest : List (CoordinatorMessage Job)}
    (idle : engine.phase = .idle)
    (split : engine.mailbox.Perm (.shutDownQueues requester :: rest)) :
    Stops numWorkers { engine with
      mailbox := rest
      coordinator := { engine.coordinator with
        shutdownRequester := some requester, shuttingDown := true }
      workers := engine.workers.map fun worker =>
        { worker with mailbox := worker.mailbox ++ [.shutDownQueues] } } := by
  have shutdowns := filter_length_of_split split CoordinatorMessage.isStop
  have replies := filter_length_of_split split CoordinatorMessage.isReply
  have once := valid.once
  simp only [CoordinatorMessage.isStop, CoordinatorMessage.isReply, Bool.toNat_true,
    Bool.toNat_false] at shutdowns replies
  rw [Engine.shutdowns, shutdowns] at once
  have running : engine.coordinator.shuttingDown = false := by
    cases shutting : engine.coordinator.shuttingDown with
    | false => rfl
    | true =>
      simp only [shutting, Bool.toNat_true] at once
      omega
  have none := valid.not_stopped running
  have counted := valid.replies
  simp only [none, running, Engine.replies, replies, List.length_nil, Bool.false_eq_true,
    ↓reduceIte] at counted
  have unstopped (worker : JobWorker Job) (member : worker ∈ engine.workers) :
      worker.mailbox.filter WorkerMessage.isStop = [] :=
    List.flatMap_eq_nil_iff.mp none worker member
  constructor
  · exact valid.size
  · simpa using valid.pool
  · simp only [Engine.shutdowns, Bool.toNat_true]
    omega
  · simp only [Engine.stops, Engine.replies, stops_broadcast unstopped, valid.pool, ↓reduceIte]
    omega
  · intro _ worker member
    obtain ⟨old, older, same⟩ := List.mem_map.mp member
    subst same
    obtain ⟨waiting, same⟩ := requests_of_unstopped (unstopped old older)
    exact .inl ⟨waiting, by rw [same]⟩
  · exact fun _ => .inl idle
  · simp [Engine.isClosing, idle]

private theorem Stops.dispatched {numWorkers : Nat} {engine : Engine Job}
    (valid : Stops numWorkers engine) (job : Job) (ticket : Nat) (rest : List (Job × Nat))
    {index : Nat} {worker : JobWorker Job} (routee : engine.workers[index]? = some worker)
    (running : engine.coordinator.shuttingDown = false) :
    Stops numWorkers (engine.dispatch job ticket rest index worker) := by
  have stops : (engine.dispatch job ticket rest index worker).stops = engine.stops :=
    flatMap_set_same _ routee (by simp [WorkerMessage.isStop])
  constructor
  · exact valid.size
  · exact (List.length_set ..).trans valid.pool
  · exact valid.once
  · rw [stops]
    exact valid.replies
  · exact fun stopping => absurd (running.symm.trans stopping) (by simp)
  · exact fun stopping => absurd (running.symm.trans stopping) (by simp)
  · simp [Engine.isClosing, Engine.dispatch, Engine.record]

private theorem Stops.workerDrained {numWorkers : Nat} {engine : Engine Job}
    (valid : Stops numWorkers engine) {index : Nat} {worker : JobWorker Job}
    {rest : List (WorkerMessage Job)} (found : engine.workers[index]? = some worker)
    (free : worker.running = none) (front : worker.mailbox = .shutDownQueues :: rest) :
    Stops numWorkers (engine.workerReceive index worker .shutDownQueues rest) := by
  refine valid.worked found rfl rfl rfl ?_ ?_ fun stopping => ?_
  · have taken : (worker.mailbox.filter WorkerMessage.isStop).Perm
        (.shutDownQueues :: rest.filter WorkerMessage.isStop) := by
      rw [front]
      exact .refl _
    have fewer : engine.stops.length = (.shutDownQueues ::
        (engine.workerReceive index worker .shutDownQueues rest).stops).length :=
      (flatMap_set_lose _ found taken).length_eq
    have more : (engine.workerReceive index worker .shutDownQueues rest).replies.length =
        engine.replies.length + 1 := by
      rw [Engine.replies, Engine.workerReceive, List.filter_append, List.length_append]
      rfl
    rw [fewer, more, List.length_cons]
    omega
  · simp [Engine.workerReceive, Engine.shutdowns, CoordinatorMessage.isStop]
  · rcases stopping.rest front with ⟨_, empty⟩ | waiting
    · exact .inr ⟨empty, free⟩
    · exact .inl waiting

private theorem Stops.posted {numWorkers : Nat} {engine : Engine Job} {action : Action Job}
    (valid : Stops numWorkers engine) (alone : ShutsDownOnce engine action)
    {message : CoordinatorMessage Job} (external : message.external = true)
    (sent : action = .post message) :
    Stops numWorkers { engine with mailbox := engine.mailbox ++ [message] } := by
  refine valid.transfer rfl rfl rfl rfl ?_ ?_ valid.quiet id
  · have other : message.isReply = false := by
      cases message <;> first | rfl | cases external
    simp [Engine.replies, other]
  · cases message with
    | shutDownQueues requester =>
      have first := alone requester sent
      have one : ([.shutDownQueues requester] : List (CoordinatorMessage Job)).filter
        CoordinatorMessage.isStop = [.shutDownQueues requester] := rfl
      rw [Engine.shutdowns] at first
      rw [Engine.shutdowns, List.filter_append, one, List.length_append, List.length_singleton]
      simp only
      omega
    | _ => simpa [Engine.shutdowns, CoordinatorMessage.isStop] using valid.once

private theorem Stops.lastReplied {numWorkers : Nat} {engine : Engine Job}
    (valid : Stops numWorkers engine) {rest : List (CoordinatorMessage Job)}
    (split : engine.mailbox.Perm (.queueShutDown :: rest))
    (all : engine.coordinator.shutdownCount + 1 = engine.coordinator.workerCount) :
    Stops numWorkers { engine with
      mailbox := rest
      coordinator := { engine.coordinator with
        shutdownCount := engine.coordinator.shutdownCount + 1, saturationPulseCount := 0 }
      layer := engine.layer ++ [.shutDownQueues]
      phase := .awaitingStore } := by
  have counted := valid.reply_counted split
  refine ⟨valid.size, valid.pool, valid.once_of_split split rfl, counted, valid.stopping,
    fun _ => .inr rfl, fun _ => ⟨?_, all.trans valid.size⟩⟩
  -- a reply came, so the workers had been told to stop
  cases shutting : engine.coordinator.shuttingDown with
  | true => rfl
  | false =>
    simp only [shutting, Bool.false_eq_true, ↓reduceIte] at counted
    omega

private theorem Stops.saturated {numWorkers : Nat} {engine : Engine Job}
    (valid : Stops numWorkers engine) {message : CoordinatorMessage Job}
    {rest extra : List (CoordinatorMessage Job)} {state : JobQueueCoordinator}
    (calls : List (Ticks × Int × Int)) (errors : Nat) (idle : engine.phase = .idle)
    (split : engine.mailbox.Perm (message :: rest))
    (sweep : message = .jobSweep ∨ message = .silentRetrySweep)
    (same : state.SameAccounts engine.coordinator)
    (silent : ∀ sent ∈ extra, sent = .silentRetrySweep) :
    Stops numWorkers { engine with
      mailbox := rest ++ extra, coordinator := state, saturated := calls, logged := errors } := by
  obtain ⟨stop, reply⟩ := plain_of_sweep sweep
  have replies := replies_of_split split reply
  have once := valid.once_of_split split stop
  have plain (sent : CoordinatorMessage Job) (member : sent ∈ extra) :
      sent.isStop = false ∧ sent.isReply = false := plain_of_sweep (.inr (silent sent member))
  have unstopped : extra.filter CoordinatorMessage.isStop = [] :=
    List.filter_eq_nil_iff.mpr fun sent member => by simp [(plain sent member).1]
  have unreplied : extra.filter CoordinatorMessage.isReply = [] :=
    List.filter_eq_nil_iff.mpr fun sent member => by simp [(plain sent member).2]
  refine valid.transfer same.workerCount same.shuttingDown same.shutdownCount rfl ?_ ?_
    (fun _ => .inl idle) id
  · simpa only [Engine.replies, List.filter_append, unreplied, List.append_nil] using replies
  · simpa only [Engine.shutdowns, List.filter_append, unstopped, List.append_nil,
      same.shuttingDown] using once

private theorem Stops.started {numWorkers : Nat} {engine : Engine Job}
    (valid : Stops numWorkers engine) {index : Nat} {worker : JobWorker Job}
    {request : ExecuteJobRequest Job} {rest : List (WorkerMessage Job)}
    (found : engine.workers[index]? = some worker)
    (front : worker.mailbox = .executeJobRequest request :: rest) :
    Stops numWorkers (engine.workerReceive index worker (.executeJobRequest request) rest) := by
  refine valid.worked found rfl rfl rfl ?_ rfl fun stopping => ?_
  · have stops : (engine.workerReceive index worker (.executeJobRequest request) rest).stops =
        engine.stops := flatMap_set_same _ found (by simp [front, WorkerMessage.isStop])
    rw [stops]
    rfl
  · rcases stopping.rest front with ⟨stop, _⟩ | waiting
    · cases stop
    · exact .inl waiting

private theorem Stops.finished {numWorkers : Nat} {engine : Engine Job}
    (valid : Stops numWorkers engine) {index : Nat} {worker : JobWorker Job}
    {request : ExecuteJobRequest Job} (outcome : Outcome)
    (found : engine.workers[index]? = some worker) (busy : worker.running = some request) :
    Stops numWorkers (engine.workerFinish index worker request outcome) := by
  refine valid.worked found rfl rfl rfl ?_ ?_ fun stopping => ?_
  · have stops : (engine.workerFinish index worker request outcome).stops = engine.stops :=
      flatMap_set_same _ found rfl
    rw [stops]
    cases outcome <;> simp [Engine.workerFinish, Engine.record, Engine.replies,
      CoordinatorMessage.isReply]
  · cases outcome <;> simp [Engine.workerFinish, Engine.record, Engine.shutdowns,
      CoordinatorMessage.isStop]
  · rcases stopping with waiting | ⟨_, idle⟩
    · exact .inl waiting
    · exact absurd (busy.symm.trans idle) (by simp)

theorem Stops.moves [OddJobWithMetadata Job] {numWorkers : Nat} {engine after : Engine Job}
    {action : Action Job} (valid : Stops numWorkers engine)
    (alone : ShutsDownOnce engine action) (move : Moves engine action after) :
    Stops numWorkers after := by
  have quiet := valid.quiet.moves move
  cases move with
  | posted message external sent => exact valid.posted alone external sent
  | ignored message rest idle split kind =>
    obtain ⟨_, reply, stop⟩ := kind
    have unstopped : message.isStop = false := by
      cases message <;> first | rfl | exact absurd rfl (stop _)
    have unreplied : message.isReply = false := by
      cases message <;> first | rfl | exact absurd rfl reply
    exact valid.transfer rfl rfl rfl rfl (replies_of_split split unreplied)
      (valid.once_of_split split unstopped) quiet id
  | shutDown requester rest idle split => exact valid.shutDown requester idle split
  | replied rest idle split =>
    have open_ : engine.isClosing = false := by simp only [Engine.isClosing, idle]
    exact ⟨valid.size, valid.pool, valid.once_of_split split rfl, valid.reply_counted split,
      valid.stopping, quiet, fun closed => absurd (open_.symm.trans closed) (by simp)⟩
  | lastReplied rest idle split all => exact valid.lastReplied split all
  | asked message rest idle split sweep running =>
    obtain ⟨stop, reply⟩ := plain_of_sweep sweep
    exact valid.transfer rfl rfl rfl rfl (replies_of_split split reply)
      (valid.once_of_split split stop) quiet (by simp [Engine.isClosing])
  | saturated message rest extra state calls errors idle split sweep same silent left queue =>
    subst queue
    exact valid.saturated calls errors idle split sweep same silent
  | resultHandled request outcome now hook message rest idle split result =>
    have plain : message.isStop = false ∧ message.isReply = false := by
      subst result
      cases outcome <;> exact ⟨rfl, rfl⟩
    exact valid.transfer rfl rfl rfl rfl (replies_of_split split plain.2)
      (valid.once_of_split split plain.1) quiet id
  | timedOut | loopEnded | fetchDelivered | acknowledged =>
    exact valid.transfer rfl rfl rfl rfl rfl valid.once quiet (by simp [Engine.isClosing])
  | missingFailed | inProgressTold =>
    refine valid.transfer rfl rfl rfl rfl rfl valid.once quiet ?_
    simp [Engine.isClosing, Engine.failMissing, Engine.guarded, Engine.record, Engine.tellLayer,
      Engine.tellInProgress]
  | dispatched job ticket rest index worker phase typed routee =>
    exact valid.dispatched job ticket rest routee
      (valid.quiet.running (by simp [phase]) (by simp only [Engine.isClosing, phase]))
  | storeFlushed rest free front =>
    have closing : (engine.layerReceive .shutDownQueues rest).isClosing = engine.isClosing := by
      cases phase : engine.phase <;> simp only [Engine.isClosing, Engine.layerReceive, phase]
    exact valid.transfer rfl rfl rfl rfl rfl valid.once quiet closing.symm.trans
  | fetchStarted | commandProcessed | fetchLost =>
    exact valid.transfer rfl rfl rfl rfl rfl valid.once quiet id
  | workerDrained index worker rest found free front =>
    exact valid.workerDrained found free front
  | started index worker request rest found free front => exact valid.started found front
  | finished index worker request outcome found busy => exact valid.finished outcome found busy

section Acknowledgement

variable [OddJobWithMetadata Job] {queueName : String} {numWorkers : Nat} {aggressiveSweep : Bool}
  {allowed : Engine Job → Action Job → Prop} {engine : Engine Job}

theorem stops_of_reaches (once : ∀ engine action, allowed engine action → ShutsDownOnce engine action)
    (reached : Transition.Reaches Engine.step allowed
      (Engine.configured queueName numWorkers aggressiveSweep) engine) : Stops numWorkers engine :=
  reached.invariant (stops_configured queueName numWorkers aggressiveSweep)
    fun _ _ _ valid permitted taken => valid.moves (once _ _ permitted) (moves_of_step taken)

theorem flushes_of_reaches
    (reached : Transition.Reaches Engine.step allowed
      (Engine.configured queueName numWorkers aggressiveSweep) engine) : Flushes engine := by
  refine reached.invariant ⟨?_, ?_, ?_⟩ fun _ _ _ valid _ taken => valid.moves (moves_of_step taken)
  · intro phase
    cases phase
  · intro phase
    cases phase
  · intro _ member
    cases member

omit [OddJobWithMetadata Job] in
/-- While the store is being closed, the only requests left are the results in the mailbox. -/
theorem Stops.outstanding_closing (valid : Stops numWorkers engine)
    (closing : engine.isClosing = true) :
    engine.waiting = [] ∧ engine.executing = [] := by
  obtain ⟨shutting, all⟩ := valid.closing closing
  have counted := valid.replies
  simp only [shutting, all, ↓reduceIte] at counted
  exact valid.drained shutting (List.eq_nil_of_length_eq_zero (by omega))

/-- Every result lost to the requester is one that the mailbox kept behind the last reply. -/
theorem Engine.pendingItems_at_acknowledgement
    (once : ∀ engine action, allowed engine action → ShutsDownOnce engine action)
    (reached : Transition.Reaches Engine.step allowed
      (Engine.configured queueName numWorkers aggressiveSweep) engine)
    (ready : engine.phase = .acknowledging) :
    engine.coordinator.pendingItems = engine.results.length ∧
      engine.unhandled.length = engine.results.length := by
  have balanced := balanced_of_reaches reached
  have closing : engine.isClosing = true := by simp only [Engine.isClosing, ready]
  obtain ⟨waiting, executing⟩ := (stops_of_reaches once reached).outstanding_closing closing
  have located := balanced.located
  have pending := balanced.pending
  have counted : engine.uncounted = 0 := by simp only [Engine.uncounted, ready]
  rw [Engine.outstanding, waiting, executing, List.length_nil] at located
  rw [counted] at pending
  omega

/-- No result is left behind once the store is being closed. -/
def Engine.TookResults (engine : Engine Job) : Prop :=
  engine.isClosing = true → engine.results = []

private theorem tookResults_of_reaches (once : ∀ engine action, allowed engine action →
      ShutsDownOnce engine action)
    (first : ∀ engine action, allowed engine action → TakesResultsFirst engine action)
    (reached : Transition.Reaches Engine.step allowed
      (Engine.configured queueName numWorkers aggressiveSweep) engine) : engine.TookResults := by
  refine reached.invariant_with (Stops numWorkers)
    (fun _ earlier => stops_of_reaches once earlier) ?_ ?_
  · intro closing
    cases closing
  intro before action after stops _ valid permitted taken closing
  cases moves_of_step taken with
  | posted message external sent =>
    have other : message.isResult = false := by
      cases message <;> first | rfl | cases external
    simpa [Engine.results, CoordinatorMessage.result?_eq_none.mpr other] using valid closing
  | lastReplied rest idle split all index now hook received last =>
    have none := first _ _ permitted index now hook received last all
    apply List.filterMap_eq_nil_iff.mpr
    intro message member
    exact CoordinatorMessage.result?_eq_none.mpr
      (none message (split.mem_iff.mpr (List.mem_cons_of_mem _ member)))
  | workerDrained index worker rest found free front =>
    simpa [Engine.results, CoordinatorMessage.result?] using valid closing
  | finished index worker request outcome found busy =>
    have executing := (stops.outstanding_closing closing).2
    have member : request ∈ before.executing :=
      List.mem_flatMap.mpr ⟨worker, List.mem_of_getElem? found, by simp [busy]⟩
    rw [executing] at member
    cases member
  | fetchStarted | commandProcessed | fetchLost | started => exact valid closing
  | storeFlushed rest free front =>
    apply valid
    cases phase : before.phase <;> simp_all [Engine.isClosing, Engine.layerReceive]
  | ignored message rest idle | shutDown requester rest idle | replied rest idle
  | saturated message rest extra state calls errors idle
  | resultHandled request outcome now hook message rest idle =>
    simp [Engine.isClosing, Engine.handleResult, Engine.guarded, Engine.record,
      Engine.tellLayer, idle] at closing
  | asked | timedOut | loopEnded | missingFailed | dispatched | inProgressTold | acknowledged
  | fetchDelivered => cases closing

/-- If the last reply never overtakes a result in the coordinator's mailbox, the
acknowledgement comes after every terminal command was processed. -/
theorem Engine.shutdown_drains
    (reached : Transition.Reaches Engine.step
      (fun engine action => ShutsDownOnce engine action ∧ TakesResultsFirst engine action)
      (Engine.configured queueName numWorkers aggressiveSweep) engine)
    (ready : engine.phase = .acknowledging) :
    engine.coordinator.pendingItems = 0 ∧
    ∀ request ∈ engine.requests, ∃ outcome, ∃ mark : Mark, mark.Settles request.jobData outcome ∧
      ⟨mark, OddJobWithMetadata.jobId request.jobData, request.ticket⟩ ∈ engine.processed := by
  have closing : engine.isClosing = true := by simp only [Engine.isClosing, ready]
  have none := tookResults_of_reaches (fun _ _ permitted => permitted.1)
    (fun _ _ permitted => permitted.2) reached closing
  obtain ⟨pending, open_⟩ := Engine.pendingItems_at_acknowledgement
    (fun _ _ permitted => permitted.1) reached ready
  rw [none, List.length_nil] at pending open_
  refine ⟨pending, fun request member => ?_⟩
  have told := told_of_reaches reached
  have handled : (engine.stage request.ticket).isHandled = true := by
    by_contra unhandled
    have listed : request ∈ engine.unhandled :=
      List.mem_filter.mpr ⟨member, by simpa using unhandled⟩
    rw [List.eq_nil_of_length_eq_zero open_] at listed
    cases listed
  have flushed : engine.commands = engine.processed := by
    have inOrder := inOrder_of_reaches reached
    rw [Engine.InOrder, Engine.unprocessed, (flushes_of_reaches reached).flushed ready] at inOrder
    simpa using inOrder
  have sent := told.commands _ _ (told.request_taken member)
  have unmarked : engine.isMarking request.ticket = false := by
    simp only [Engine.isMarking, ready]
  cases stage : engine.stage request.ticket with
  | handled outcome now =>
    refine ⟨outcome, _, Engine.terminalMark_settles request.jobData outcome now, ?_⟩
    rw [← flushed]
    rw [unmarked, stage] at sent
    have listed : ⟨Engine.terminalMark request.jobData outcome now,
        OddJobWithMetadata.jobId request.jobData, request.ticket⟩ ∈
        engine.commandsFor request.ticket := by
      rw [sent]
      simp [Stage.commands]
    exact (List.mem_filter.mp listed).1
  | _ => simp [stage, Stage.isHandled] at handled

end Acknowledgement

/-- `ShutsDownOnce` and `RespectsPriority`, decided. -/
def permits (engine : Engine Job) (action : Action Job) : Bool :=
  match action with
  | .post (.shutDownQueues _) => engine.shutdowns == 0
  | .receive index _ _ => engine.mailbox[index]?.all fun message =>
      engine.mailbox.all fun other => priorityGenerator message ≤ priorityGenerator other
  | _ => true

theorem permits_sound {engine : Engine Job} {action : Action Job}
    (permitted : permits engine action = true) :
    ShutsDownOnce engine action ∧ RespectsPriority engine action := by
  constructor
  · intro requester sent
    subst sent
    simpa [permits] using permitted
  · intro index now hook received message found other member
    subst received
    simp only [permits, found, Option.all_some, List.all_eq_true, decide_eq_true_eq] at permitted
    exact permitted other member

/-- `TakesResultsFirst`, decided. -/
def takesResultsFirst (engine : Engine Job) (action : Action Job) : Bool :=
  match action with
  | .receive index _ _ => engine.mailbox[index]?.all fun message =>
      !message.isReply ||
        engine.coordinator.shutdownCount + 1 != engine.coordinator.workerCount ||
        engine.mailbox.all fun other => !other.isResult
  | _ => true

theorem takesResultsFirst_sound {engine : Engine Job} {action : Action Job}
    (permitted : takesResultsFirst engine action = true) : TakesResultsFirst engine action := by
  intro index now hook received found last message member
  subst received
  simp only [takesResultsFirst, found, Option.all_some, CoordinatorMessage.isReply, Bool.not_true,
    last, bne_self_eq_false, Bool.false_or, List.all_eq_true, Bool.not_eq_true'] at permitted
  exact permitted message member

/-- The job is executing when the shutdown arrives; its result and the worker's reply
end up in the coordinator's mailbox together. -/
def shutdownRun (order : List (Action (SqlDbOddJob Unit Unit))) :
    List (Action (SqlDbOddJob Unit Unit)) :=
  [.post .jobSweep, .receive 0 0 .returned, .layerReceive, .layerReply (some [sampleJob]),
    .next 0 .returned, .workerReceive 0, .tellInProgress, .next 0 .returned,
    .post (.shutDownQueues 1), .receive 0 0 .returned, .workerFinish 0 .returned,
    .workerReceive 0] ++ order

/-- The reply, which has the priority of the result, comes out first: the requester is
answered although the success of the job was never told to the queue layer. -/
theorem Engine.shutdown_loses_result : ∃ engine,
    Transition.Reaches Engine.step
      (fun engine action => ShutsDownOnce engine action ∧ RespectsPriority engine action)
      (Engine.configured "default" 1 false) engine ∧
    engine.phase = .acknowledging ∧ engine.coordinator.pendingItems = 1 ∧
    engine.requests = [⟨sampleJob, 0⟩] ∧ engine.processed = [⟨.markJobInProgress, 7, 0⟩] ∧
    ¬ (engine.coordinator.pendingItems = 0 ∧
      ∀ request ∈ engine.requests, ∃ outcome, ∃ mark : Mark,
        mark.Settles request.jobData outcome ∧
        ⟨mark, OddJobWithMetadata.jobId request.jobData, request.ticket⟩ ∈ engine.processed) := by
  refine ⟨_, Transition.reaches_of_execute (fun _ _ => permits_sound)
    (rfl : Transition.execute permits Engine.step (Engine.configured "default" 1 false)
      (shutdownRun [.receive 1 0 .returned, .layerReceive, .layerReceive]) = some _),
    by decide, by decide, by decide, by decide, ?_⟩
  rintro ⟨settled, _⟩
  exact absurd settled (by decide)

theorem Engine.shutdown_drains_in_order : ∃ engine,
    Transition.execute (fun engine action => permits engine action && takesResultsFirst engine action)
      Engine.step (Engine.configured "default" 1 false)
      (shutdownRun [.receive 0 0 .returned, .receive 0 0 .returned, .layerReceive, .layerReceive,
        .layerReceive]) = some engine ∧
    engine.requests = [⟨sampleJob, 0⟩] ∧ engine.coordinator.pendingItems = 0 ∧
    ∀ request ∈ engine.requests, ∃ outcome, ∃ mark : Mark,
      mark.Settles request.jobData outcome ∧
      ⟨mark, OddJobWithMetadata.jobId request.jobData, request.ticket⟩ ∈ engine.processed := by
  refine ⟨_, rfl, by decide, Engine.shutdown_drains (Transition.reaches_of_execute
    (fun engine action permitted => ?_)
    (rfl : Transition.execute
      (fun engine action => permits engine action && takesResultsFirst engine action)
      Engine.step (Engine.configured "default" 1 false)
      (shutdownRun [.receive 0 0 .returned, .receive 0 0 .returned, .layerReceive, .layerReceive,
        .layerReceive]) = some _)) rfl⟩
  obtain ⟨once, ordered⟩ := Bool.and_eq_true_iff.mp permitted
  exact ⟨(permits_sound once).1, takesResultsFirst_sound ordered⟩

end OddJob.Akka
