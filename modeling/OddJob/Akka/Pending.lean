import OddJob.Akka.Accounting

/-! What `PendingItems` counts, and the backpressure that bounds it. -/

namespace OddJob.Akka

variable {Job : Type}

namespace Engine

/-- A dispatch whose increment of `PendingItems` is still to come. -/
def uncounted (engine : Engine Job) : Nat :=
  match engine.phase with
  | .marking _ _ _ => 1
  | _ => 0

/-- Where the requests are whose result is not handled: in a worker's mailbox,
in a worker, or in the coordinator's mailbox. -/
def outstanding (engine : Engine Job) : Nat :=
  engine.waiting.length + engine.executing.length + engine.results.length

end Engine

/-- `PendingItems` agrees with the dispatched requests, and these with their places. -/
structure Balanced (engine : Engine Job) : Prop where
  pending : engine.coordinator.pendingItems + engine.uncounted = engine.unhandled.length
  located : engine.unhandled.length = engine.outstanding

private theorem unhandled_of_handled {requests : List (ExecuteJobRequest Job)}
    {request : ExecuteJobRequest Job} {stage after : Nat → Stage}
    (alone : (requests.filter fun other => other.ticket = request.ticket) = [request])
    (was : (stage request.ticket).isHandled = false)
    (closed : (after request.ticket).isHandled = true)
    (others : ∀ other, other ≠ request.ticket → after other = stage other) :
    (requests.filter fun other => !(stage other.ticket).isHandled).length =
      (requests.filter fun other => !(after other.ticket).isHandled).length + 1 := by
  let same := fun other : ExecuteJobRequest Job => decide (other.ticket = request.ticket)
  have rest : (requests.filter fun other => !same other).countP
      (fun other => !(stage other.ticket).isHandled) =
      (requests.filter fun other => !same other).countP
        fun other => !(after other.ticket).isHandled := by
    apply List.countP_congr
    intro other member
    have different : other.ticket ≠ request.ticket := by
      simpa [same] using (List.mem_filter.mp member).2
    rw [others _ different]
  simp only [← List.countP_eq_length_filter]
  rw [List.countP_eq_countP_filter_add requests _ same,
    List.countP_eq_countP_filter_add requests (fun other => !(after other.ticket).isHandled) same,
    rest]
  simp only [same, alone]
  simp [was, closed, Nat.add_comm]

private theorem isHandled_record {engine : Engine Job} {ticket : Nat} {stage : Stage}
    (same : stage.isHandled = (engine.stage ticket).isHandled) (other : Nat) :
    ((engine.record ticket stage).stage other).isHandled = (engine.stage other).isHandled := by
  simp only [Engine.record]
  split
  · rename_i equal
    rw [equal]
    exact same
  · rfl

variable [OddJobWithMetadata Job]

namespace Balanced

variable {engine after : Engine Job}

omit [OddJobWithMetadata Job] in
theorem transfer (valid : Balanced engine)
    (pending : after.coordinator.pendingItems + after.uncounted =
      engine.coordinator.pendingItems + engine.uncounted)
    (requests : after.requests = engine.requests)
    (handled : ∀ ticket, (after.stage ticket).isHandled = (engine.stage ticket).isHandled)
    (outstanding : after.outstanding = engine.outstanding) : Balanced after := by
  have unhandled : after.unhandled = engine.unhandled := by
    simp only [Engine.unhandled, requests, handled]
  refine ⟨?_, ?_⟩
  · rw [pending, unhandled]
    exact valid.pending
  · rw [unhandled, outstanding]
    exact valid.located

end Balanced

omit [OddJobWithMetadata Job] in
theorem balanced_configured (queueName : String) (numWorkers : Nat) (aggressiveSweep : Bool) :
    Balanced (Engine.configured queueName numWorkers aggressiveSweep : Engine Job) := by
  refine ⟨rfl, ?_⟩
  simp [Engine.unhandled, Engine.outstanding, Engine.configured, Engine.waiting,
    Engine.executing, Engine.results, JobWorker.waiting]

private theorem Balanced.resultHandled {engine : Engine Job} (valid : Balanced engine)
    (told : Told engine) {request : ExecuteJobRequest Job} {outcome : Outcome} (now : Ticks)
    (hook : Outcome) (rest : List (CoordinatorMessage Job)) (idle : engine.phase = .idle)
    (split : engine.results.Perm ((request, outcome) :: rest.filterMap CoordinatorMessage.result?))
    (taken : engine.taken[request.ticket]? = some request.jobData)
    (stage : engine.stage request.ticket = .executed outcome) :
    Balanced ({ engine with mailbox := rest }.handleResult request outcome now hook) := by
  let after := { engine with mailbox := rest }.handleResult request outcome now hook
  have alone := told.requests _ _ taken
  rw [stage] at alone
  have closed : (after.stage request.ticket).isHandled = true := by
    simp [after, Engine.handleResult, Engine.guarded, Engine.record, Stage.isHandled]
  have others (other : Nat) (different : other ≠ request.ticket) :
      after.stage other = engine.stage other := by
    simp [after, Engine.handleResult, Engine.guarded, Engine.record, Engine.tellLayer, different]
  have fewer : engine.unhandled.length = after.unhandled.length + 1 :=
    unhandled_of_handled alone (by rw [stage]; rfl) closed others
  have arrived : engine.results.length =
      (rest.filterMap CoordinatorMessage.result?).length + 1 := split.length_eq
  have count : after.coordinator.pendingItems = engine.coordinator.pendingItems - 1 := rfl
  have settled : engine.uncounted = 0 := by simp only [Engine.uncounted, idle]
  have still : after.uncounted = 0 := settled
  have before := valid.pending
  have located := valid.located
  have places : after.outstanding = engine.waiting.length + engine.executing.length +
      (rest.filterMap CoordinatorMessage.result?).length := rfl
  refine (Balanced.mk ?_ ?_ : Balanced after)
  · omega
  · rw [Engine.outstanding] at located
    omega

omit [OddJobWithMetadata Job] in
private theorem Balanced.dispatched {engine : Engine Job} (valid : Balanced engine) {job : Job}
    {ticket index : Nat} {rest : List (Job × Nat)} {worker : JobWorker Job}
    (looping : engine.phase = .queueing ((job, ticket) :: rest))
    (routee : engine.workers[index]? = some worker) (stage : engine.stage ticket = .fetched) :
    Balanced (engine.dispatch job ticket rest index worker) := by
  have same (other : Nat) : ((engine.dispatch job ticket rest index worker).stage other).isHandled =
      (engine.stage other).isHandled :=
    isHandled_record (by rw [stage]; rfl) other
  have more : (engine.dispatch job ticket rest index worker).unhandled =
      engine.unhandled ++ [⟨job, ticket⟩] := by
    simp only [Engine.unhandled, same]
    simp [Engine.dispatch, Engine.record, stage, Stage.isHandled]
  have come : (engine.dispatch job ticket rest index worker).waiting.Perm
      (⟨job, ticket⟩ :: engine.waiting) :=
    flatMap_set_gain _ routee (by simp [JobWorker.waiting, List.perm_append_singleton])
  have grown : (engine.dispatch job ticket rest index worker).waiting.length =
      engine.waiting.length + 1 := come.length_eq
  have unmoved : (engine.dispatch job ticket rest index worker).executing = engine.executing :=
    flatMap_set_same _ routee rfl
  have results : (engine.dispatch job ticket rest index worker).results = engine.results := rfl
  have settled : engine.uncounted = 0 := by simp only [Engine.uncounted, looping]
  have begun : (engine.dispatch job ticket rest index worker).uncounted = 1 := rfl
  have count : (engine.dispatch job ticket rest index worker).coordinator = engine.coordinator := rfl
  have before := valid.pending
  have located := valid.located
  refine ⟨?_, ?_⟩
  · rw [more, count, begun, List.length_append, List.length_singleton]
    omega
  · unfold Engine.outstanding at *
    rw [more, grown, unmoved, results, List.length_append, List.length_singleton]
    omega

omit [OddJobWithMetadata Job] in
private theorem Balanced.started {engine : Engine Job} (valid : Balanced engine) {index : Nat}
    {worker : JobWorker Job} {request : ExecuteJobRequest Job} {rest : List (WorkerMessage Job)}
    (found : engine.workers[index]? = some worker) (free : worker.running = none)
    (left : engine.waiting.Perm (request ::
      (engine.workerReceive index worker (.executeJobRequest request) rest).waiting))
    (stage : engine.stage request.ticket = .waiting) :
    Balanced (engine.workerReceive index worker (.executeJobRequest request) rest) := by
  have come : (engine.workerReceive index worker (.executeJobRequest request) rest).executing.Perm
      (request :: engine.executing) := flatMap_set_gain _ found (by simp [free])
  have results : (engine.workerReceive index worker (.executeJobRequest request) rest).results =
    engine.results := rfl
  have fewer := left.length_eq
  have more := come.length_eq
  rw [List.length_cons] at fewer more
  refine valid.transfer rfl rfl (isHandled_record (by rw [stage]; rfl)) ?_
  rw [Engine.outstanding, Engine.outstanding, results]
  omega

omit [OddJobWithMetadata Job] in
private theorem Balanced.finished {engine : Engine Job} (valid : Balanced engine) {index : Nat}
    {worker : JobWorker Job} {request : ExecuteJobRequest Job} {outcome : Outcome}
    (found : engine.workers[index]? = some worker)
    (left : engine.executing.Perm
      (request :: (engine.workerFinish index worker request outcome).executing))
    (stage : engine.stage request.ticket = .executing) :
    Balanced (engine.workerFinish index worker request outcome) := by
  have unmoved : (engine.workerFinish index worker request outcome).waiting = engine.waiting :=
    flatMap_set_same _ found rfl
  have fewer := left.length_eq
  have more : (engine.workerFinish index worker request outcome).results.length =
      engine.results.length + 1 := by
    cases outcome <;> simp [Engine.workerFinish, Engine.record, Engine.results,
      CoordinatorMessage.result?]
  rw [List.length_cons] at fewer
  refine valid.transfer rfl rfl (isHandled_record (by rw [stage]; rfl)) ?_
  rw [Engine.outstanding, Engine.outstanding, unmoved]
  omega

omit [OddJobWithMetadata Job] in
private theorem outstanding_congr {engine left : Engine Job} (waiting : left.waiting = engine.waiting)
    (executing : left.executing = engine.executing) (results : left.results.Perm engine.results) :
    left.outstanding = engine.outstanding := by
  rw [Engine.outstanding, Engine.outstanding, waiting, executing, results.length_eq]

omit [OddJobWithMetadata Job] in
private theorem Balanced.received {engine after : Engine Job} (valid : Balanced engine)
    {message : CoordinatorMessage Job} {rest : List (CoordinatorMessage Job)}
    (split : engine.mailbox.Perm (message :: rest)) (plain : message.isResult = false)
    (mailbox : after.mailbox = rest) (pending : after.coordinator.pendingItems + after.uncounted =
      engine.coordinator.pendingItems + engine.uncounted)
    (requests : after.requests = engine.requests) (stage : after.stage = engine.stage)
    (waiting : after.waiting = engine.waiting) (executing : after.executing = engine.executing) :
    Balanced after := by
  refine valid.transfer pending requests (fun _ => by rw [stage])
    (outstanding_congr waiting executing ?_)
  rw [Engine.results, mailbox]
  exact results_of_split split plain

omit [OddJobWithMetadata Job] in
private theorem Balanced.saturated {engine : Engine Job} (valid : Balanced engine)
    {message : CoordinatorMessage Job} {rest extra : List (CoordinatorMessage Job)}
    {state : JobQueueCoordinator} (calls : List (Ticks × Int × Int)) (errors : Nat)
    (split : engine.mailbox.Perm (message :: rest))
    (sweep : message = .jobSweep ∨ message = .silentRetrySweep)
    (same : state.SameAccounts engine.coordinator)
    (silent : ∀ sent ∈ extra, sent = .silentRetrySweep) :
    Balanced { engine with
      mailbox := rest ++ extra, coordinator := state, saturated := calls, logged := errors } := by
  refine valid.transfer ?_ rfl (fun _ => rfl) (outstanding_congr rfl rfl ?_)
  · simp only [Engine.uncounted, same.pendingItems]
  · have none : extra.filterMap CoordinatorMessage.result? = [] := by
      apply List.filterMap_eq_nil_iff.mpr
      intro sent member
      rw [silent sent member]
      rfl
    simpa [Engine.results, none] using results_of_split split (sweep_not_result sweep)

omit [OddJobWithMetadata Job] in
private theorem result_of_split {engine : Engine Job} {request : ExecuteJobRequest Job}
    {outcome : Outcome} {message : CoordinatorMessage Job} {rest : List (CoordinatorMessage Job)}
    (split : engine.mailbox.Perm (message :: rest))
    (result : message = match outcome with
      | .returned => .jobSuceeded request
      | .threw => .jobFailed request) :
    engine.results.Perm ((request, outcome) :: rest.filterMap CoordinatorMessage.result?) := by
  have mapped := split.filterMap CoordinatorMessage.result?
  subst result
  cases outcome <;> exact mapped

/-- One case per move: `PendingItems` changes where a dispatch is counted and where a
result is handled, and in no other move. -/
theorem Balanced.moves {engine after : Engine Job} {action : Action Job} (valid : Balanced engine)
    (tracked : Tracked engine) (told : Told engine) (move : Moves engine action after) :
    Balanced after := by
  cases move with
  | posted message external sent =>
    refine valid.transfer rfl rfl (fun _ => rfl) (outstanding_congr rfl rfl (.of_eq ?_))
    have other : message.isResult = false := by
      cases message <;> first | rfl | cases external
    simp [Engine.results, CoordinatorMessage.result?_eq_none.mpr other]
  | ignored message rest idle split kind =>
    exact valid.received split kind.1 rfl rfl rfl rfl rfl rfl
  | shutDown requester rest idle split =>
    exact valid.received split rfl rfl rfl rfl rfl (waiting_broadcast engine)
      (executing_broadcast engine)
  | replied rest idle split more => exact valid.received split rfl rfl rfl rfl rfl rfl rfl
  | lastReplied rest idle split =>
    refine valid.received split rfl rfl ?_ rfl rfl rfl rfl
    simp only [Engine.uncounted, idle]
  | asked message rest idle split sweep =>
    refine valid.received split (sweep_not_result sweep) rfl ?_ rfl rfl rfl rfl
    simp only [Engine.uncounted, idle]
  | saturated message rest extra state calls errors idle split sweep same silent left queue =>
    subst queue
    exact valid.saturated calls errors split sweep same silent
  | resultHandled request outcome now hook message rest idle split result =>
    have kept := result_of_split split result
    obtain ⟨stage, taken, _⟩ := tracked.results.fits (request, outcome)
      (kept.mem_iff.mpr List.mem_cons_self)
    exact valid.resultHandled told now hook rest idle kept taken stage
  | timedOut ask errors phase | loopEnded phase | acknowledged requesters phase
  | fetchDelivered request batch busy phase =>
    refine valid.transfer ?_ rfl (fun _ => rfl) rfl
    simp only [Engine.uncounted, phase]
  | missingFailed job ticket rest hook looping missing =>
    have queued : engine.queued = (job, ticket) :: rest := by simp only [Engine.queued, looping]
    obtain ⟨stage, _⟩ := tracked.queued.fits (job, ticket) (by simp [queued])
    refine valid.transfer ?_ rfl (isHandled_record (by rw [Engine.tellLayer, stage]; rfl)) rfl
    simp [Engine.uncounted, looping, Engine.failMissing, Engine.guarded, Engine.record,
      Engine.tellLayer]
  | dispatched job ticket rest index worker looping typed routee =>
    have queued : engine.queued = (job, ticket) :: rest := by simp only [Engine.queued, looping]
    obtain ⟨stage, _⟩ := tracked.queued.fits (job, ticket) (by simp [queued])
    exact valid.dispatched looping routee stage
  | inProgressTold job ticket rest marking =>
    refine valid.transfer ?_ rfl (fun _ => rfl) rfl
    simp [Engine.uncounted, marking, Engine.tellInProgress, Engine.tellLayer]
  | storeFlushed rest free front =>
    refine valid.transfer ?_ rfl (fun _ => rfl) rfl
    cases phase : engine.phase <;> simp only [Engine.uncounted, Engine.layerReceive, phase]
  | fetchStarted | commandProcessed | fetchLost =>
    exact valid.transfer rfl rfl (fun _ => rfl) rfl
  | workerDrained index worker rest found free front =>
    refine valid.transfer rfl rfl (fun _ => rfl) (outstanding_congr ?_ ?_ (.of_eq ?_))
    · exact flatMap_set_same _ found (by simp [JobWorker.waiting, front])
    · exact flatMap_set_same _ found rfl
    · simp [Engine.results, CoordinatorMessage.result?]
  | started index worker request rest found free front =>
    have left : engine.waiting.Perm (request ::
        (engine.workerReceive index worker (.executeJobRequest request) rest).waiting) :=
      flatMap_set_lose _ found (by simp [JobWorker.waiting, front])
    have stage := (tracked.waiting.fits request (left.mem_iff.mpr List.mem_cons_self)).1
    exact valid.started found free left stage
  | finished index worker request outcome found busy =>
    have left : engine.executing.Perm
        (request :: (engine.workerFinish index worker request outcome).executing) :=
      flatMap_set_lose _ found (by simp [busy])
    have stage := (tracked.executing.fits request (left.mem_iff.mpr List.mem_cons_self)).1
    exact valid.finished found left stage

theorem balanced_of_reaches {queueName : String} {numWorkers : Nat} {aggressiveSweep : Bool}
    {allowed : Engine Job → Action Job → Prop} {engine : Engine Job}
    (reached : Transition.Reaches Engine.step allowed
      (Engine.configured queueName numWorkers aggressiveSweep) engine) : Balanced engine :=
  reached.invariant_with (fun engine => Tracked engine ∧ Told engine)
    (fun _ earlier => ⟨tracked_of_reaches earlier, told_of_reaches earlier⟩)
    (balanced_configured queueName numWorkers aggressiveSweep)
    fun _ _ _ known _ valid _ taken => valid.moves known.1 known.2 (moves_of_step taken)

/-- A manager returns at most the jobs it was asked for. -/
def FetchesWithinSize (engine : Engine Job) (action : Action Job) : Prop :=
  ∀ batch, action = .layerReply (some batch) →
    ∀ request, engine.fetching = some request → batch.length ≤ request.fetchSize

instance (engine : Engine Job) : DecidablePred (FetchesWithinSize engine)
  | .layerReply (some batch) =>
    decidable_of_iff (∀ request ∈ engine.fetching, batch.length ≤ request.fetchSize)
      ⟨fun within _ same => by cases same; exact within, fun within => within batch rfl⟩
  | .layerReply none | .post _ | .receive _ _ _ | .askTimeout _ | .next _ _ | .tellInProgress
  | .acknowledge | .layerReceive | .workerReceive _ | .workerFinish _ _ =>
    .isTrue fun _ same => by cases same

/-- The dispatched jobs and those the batch in hand can still add leave room for three
times the workers, and a fetch is asked for only below twice the workers. -/
structure Bounded (numWorkers : Nat) (engine : Engine Job) : Prop where
  size : engine.coordinator.workerCount = numWorkers
  asked : ∀ request, LayerMessage.getJobs request ∈ engine.layer → request.fetchSize = numWorkers
  fetching : ∀ request, engine.fetching = some request → request.fetchSize = numWorkers
  unsaturated : ∀ ask, engine.phase = .awaitingJobs ask →
    engine.coordinator.pendingItems < 2 * numWorkers
  room : engine.coordinator.pendingItems + engine.uncounted + engine.queued.length <
    3 * numWorkers

omit [OddJobWithMetadata Job] in
theorem bounded_configured (queueName : String) {numWorkers : Nat} (aggressiveSweep : Bool)
    (workers : 1 ≤ numWorkers) :
    Bounded numWorkers (Engine.configured queueName numWorkers aggressiveSweep : Engine Job) where
  size := rfl
  asked request member := by cases member
  fetching request busy := by cases busy
  unsaturated ask phase := by cases phase
  room := by
    simp [Engine.configured, Engine.uncounted, Engine.queued]
    omega

section Steps

variable {numWorkers : Nat} {engine : Engine Job}

omit [OddJobWithMetadata Job] in
private theorem Bounded.room_of_calm (valid : Bounded numWorkers engine)
    (calm : engine.phase = .idle ∨ engine.phase = .acknowledging ∨ engine.phase = .queueing [] ∨
      ∃ ask, engine.phase = .awaitingJobs ask) :
    engine.coordinator.pendingItems < 3 * numWorkers := by
  have room := valid.room
  rcases calm with here | here | here | ⟨ask, here⟩ <;>
    simp only [Engine.uncounted, Engine.queued, here, List.length_nil] at room <;> omega

omit [OddJobWithMetadata Job] in
private theorem Bounded.asked_more (valid : Bounded numWorkers engine) (idle : engine.phase = .idle)
    (below : engine.coordinator.pendingItems < engine.coordinator.workerCount * 2)
    (rest : List (CoordinatorMessage Job)) :
    Bounded numWorkers { engine with
      mailbox := rest
      coordinator := { engine.coordinator with
        saturationStartTime := none, saturationPulseCount := 0 }
      layer := engine.layer ++ [.getJobs ⟨engine.asks, engine.coordinator.queueName,
        engine.coordinator.workerCount⟩]
      asks := engine.asks + 1
      phase := .awaitingJobs engine.asks } := by
  have room := valid.room_of_calm (.inl idle)
  have size := valid.size
  refine ⟨size, ?_, valid.fetching, fun _ _ => ?_, ?_⟩
  · intro request member
    rcases List.mem_append.mp member with older | newer
    · exact valid.asked request older
    · cases List.mem_singleton.mp newer
      exact size
  · simp only
    omega
  · simp only [Engine.uncounted, Engine.queued, List.length_nil]
    omega

private theorem Bounded.resultHandled (valid : Bounded numWorkers engine)
    (idle : engine.phase = .idle) (request : ExecuteJobRequest Job) (outcome : Outcome) (now : Ticks)
    (hook : Outcome) (rest : List (CoordinatorMessage Job)) :
    Bounded numWorkers ({ engine with mailbox := rest }.handleResult request outcome now hook) := by
  have room := valid.room_of_calm (.inl idle)
  refine ⟨valid.size, ?_, valid.fetching, fun ask phase => ?_, ?_⟩
  · simpa [Engine.handleResult, Engine.guarded, Engine.record, Engine.tellLayer] using valid.asked
  · exact absurd (idle.symm.trans phase) (by simp)
  · simp only [Engine.handleResult, Engine.guarded, Engine.record, Engine.tellLayer,
      Engine.uncounted, Engine.queued, idle, List.length_nil]
    omega

private theorem Bounded.missingFailed (valid : Bounded numWorkers engine) {job : Job} {ticket : Nat}
    {rest : List (Job × Nat)} (looping : engine.phase = .queueing ((job, ticket) :: rest))
    (hook : Outcome) : Bounded numWorkers (engine.failMissing job ticket rest hook) := by
  have room := valid.room
  simp only [Engine.uncounted, Engine.queued, looping, List.length_cons] at room
  refine ⟨valid.size, ?_, valid.fetching, (fun ask phase => by cases phase), ?_⟩
  · simpa [Engine.failMissing, Engine.guarded, Engine.record, Engine.tellLayer] using valid.asked
  · simp only [Engine.failMissing, Engine.guarded, Engine.record, Engine.tellLayer,
      Engine.uncounted, Engine.queued]
    omega

omit [OddJobWithMetadata Job] in
private theorem Bounded.dispatched (valid : Bounded numWorkers engine) {job : Job} {ticket : Nat}
    {rest : List (Job × Nat)} (looping : engine.phase = .queueing ((job, ticket) :: rest))
    (index : Nat) (worker : JobWorker Job) :
    Bounded numWorkers (engine.dispatch job ticket rest index worker) := by
  have room := valid.room
  simp only [Engine.uncounted, Engine.queued, looping, List.length_cons] at room
  refine ⟨valid.size, valid.asked, valid.fetching, (fun ask phase => by cases phase), ?_⟩
  simp only [Engine.dispatch, Engine.record, Engine.uncounted, Engine.queued]
  omega

private theorem Bounded.inProgressTold (valid : Bounded numWorkers engine) {job : Job}
    {ticket : Nat} {rest : List (Job × Nat)} (marking : engine.phase = .marking job ticket rest) :
    Bounded numWorkers (engine.tellInProgress job ticket rest) := by
  have room := valid.room
  simp only [Engine.uncounted, Engine.queued, marking] at room
  refine ⟨valid.size, ?_, valid.fetching, (fun ask phase => by cases phase), ?_⟩
  · simpa [Engine.tellInProgress, Engine.tellLayer] using valid.asked
  · simp only [Engine.tellInProgress, Engine.tellLayer, Engine.uncounted, Engine.queued]
    omega

omit [OddJobWithMetadata Job] in
private theorem Bounded.storeFlushed (valid : Bounded numWorkers engine) {rest : List LayerMessage}
    (front : engine.layer = .shutDownQueues :: rest) :
    Bounded numWorkers (engine.layerReceive .shutDownQueues rest) := by
  have asked := valid.asked
  rw [front] at asked
  have kept : (engine.layerReceive .shutDownQueues rest).uncounted = engine.uncounted ∧
      (engine.layerReceive .shutDownQueues rest).queued = engine.queued := by
    cases phase : engine.phase <;>
      simp only [Engine.layerReceive, Engine.uncounted, Engine.queued, phase, and_self]
  refine ⟨valid.size, fun request member => asked request (List.mem_cons_of_mem _ member),
    valid.fetching, fun ask phase => valid.unsaturated ask ?_, ?_⟩
  · cases here : engine.phase <;> simp_all [Engine.layerReceive]
  · rw [kept.1, kept.2]
    exact valid.room

omit [OddJobWithMetadata Job] in
private theorem Bounded.fetchDelivered (valid : Bounded numWorkers engine) {request : GetJobs}
    {batch : List Job} (fits : batch.length ≤ request.fetchSize)
    (busy : engine.fetching = some request) (waiting : engine.phase = .awaitingJobs request.ask) :
    Bounded numWorkers { engine with
      fetching := none
      taken := engine.taken ++ batch
      phase := .queueing (batch.zipIdx engine.taken.length) } := by
  rw [valid.fetching request busy] at fits
  have below := valid.unsaturated _ waiting
  refine ⟨valid.size, valid.asked, by simp, by simp, ?_⟩
  simp only [Engine.uncounted, Engine.queued, List.length_zipIdx]
  omega

theorem Bounded.moves {after : Engine Job} {action : Action Job}
    (valid : Bounded numWorkers engine) (within : FetchesWithinSize engine action)
    (move : Moves engine action after) : Bounded numWorkers after := by
  have ⟨size, asked, fetching, unsaturated, room⟩ := valid
  -- nothing is owed in the phases that these moves lead to
  have calmed (calm : engine.phase = .idle ∨ engine.phase = .acknowledging ∨
      engine.phase = .queueing [] ∨ ∃ ask, engine.phase = .awaitingJobs ask) :
      engine.coordinator.pendingItems + (0 : Nat) + ([] : List (Job × Nat)).length <
        3 * numWorkers := by
    simpa using valid.room_of_calm calm
  cases move with
  | posted | ignored | shutDown | replied | workerDrained | started | finished =>
    exact ⟨size, asked, fetching, unsaturated, room⟩
  | fetchLost => exact ⟨size, asked, by simp, unsaturated, room⟩
  | lastReplied rest idle =>
    exact ⟨size, by simpa using asked, fetching, by simp, calmed (.inl idle)⟩
  | asked message rest idle split sweep running below => exact valid.asked_more idle below rest
  | saturated message rest extra state calls errors idle split sweep same =>
    obtain ⟨pending, workers, _⟩ := same
    refine ⟨workers.trans size, asked, fetching, by simpa only [pending] using unsaturated, ?_⟩
    rw [pending]
    exact room
  | resultHandled request outcome now hook message rest idle =>
    exact valid.resultHandled idle request outcome now hook rest
  | timedOut ask errors waiting =>
    exact ⟨size, asked, fetching, by simp, calmed (.inr (.inr (.inr ⟨ask, waiting⟩)))⟩
  | loopEnded looping =>
    exact ⟨size, asked, fetching, by simp, calmed (.inr (.inr (.inl looping)))⟩
  | acknowledged requesters ready =>
    exact ⟨size, asked, fetching, by simp, calmed (.inr (.inl ready))⟩
  | missingFailed job ticket rest hook looping => exact valid.missingFailed looping hook
  | dispatched job ticket rest index worker looping => exact valid.dispatched looping index worker
  | inProgressTold job ticket rest marking => exact valid.inProgressTold marking
  | storeFlushed rest free front => exact valid.storeFlushed front
  | fetchStarted request rest free front =>
    rw [front] at asked
    refine ⟨size, fun other member => asked other (List.mem_cons_of_mem _ member), ?_,
      unsaturated, room⟩
    intro other busy
    exact asked other (by simp [Option.some.inj busy])
  | commandProcessed command rest free front =>
    rw [front] at asked
    exact ⟨size, fun other member => asked other (List.mem_cons_of_mem _ member), fetching,
      unsaturated, room⟩
  | fetchDelivered request batch busy waiting reply =>
    exact valid.fetchDelivered (within batch reply request busy) busy waiting

end Steps

theorem bounded_of_reaches {queueName : String} {numWorkers : Nat} {aggressiveSweep : Bool}
    (workers : 1 ≤ numWorkers) {engine : Engine Job}
    (reached : Transition.Reaches Engine.step FetchesWithinSize
      (Engine.configured queueName numWorkers aggressiveSweep) engine) :
    Bounded numWorkers engine :=
  reached.invariant (bounded_configured queueName aggressiveSweep workers)
    fun _ _ _ valid within taken => valid.moves within (moves_of_step taken)

/-- Between two messages `PendingItems` counts the dispatched requests whose result is
still to be handled, wherever they are, and stays below three times the workers. -/
theorem Engine.pendingItems_counts_unhandled {queueName : String} {numWorkers : Nat}
    {aggressiveSweep : Bool} (workers : 1 ≤ numWorkers) {engine : Engine Job}
    (reached : Transition.Reaches Engine.step FetchesWithinSize
      (Engine.configured queueName numWorkers aggressiveSweep) engine)
    (idle : engine.phase = .idle) :
    engine.coordinator.pendingItems = engine.unhandled.length ∧
    engine.unhandled.length =
      engine.waiting.length + engine.executing.length + engine.results.length ∧
    0 ≤ engine.coordinator.pendingItems ∧
    engine.coordinator.pendingItems ≤ 3 * (numWorkers : Int) - 1 := by
  have balanced := balanced_of_reaches reached
  have room := (bounded_of_reaches workers reached).room
  have counted : engine.uncounted = 0 := by simp only [Engine.uncounted, idle]
  have pending := balanced.pending
  rw [counted] at pending room
  refine ⟨by omega, balanced.located, by omega, by omega⟩

def sampleJob : SqlDbOddJob Unit Unit where
  jobId := 7
  jobArgs := []
  typeExecutedOn := some ()
  methodName := "Write"
  status := .new
  methodGenericTypes := []
  retryParameters := { maxRetries := 1 }
  queue := "default"
  executionTime := none

def sampleRun : List (Action (SqlDbOddJob Unit Unit)) :=
  [.post .jobSweep, .receive 0 0 .returned, .layerReceive, .layerReply (some [sampleJob]),
    .next 0 .returned, .workerReceive 0, .tellInProgress, .next 0 .returned,
    .workerFinish 0 .threw, .receive 0 5 .threw]

theorem Engine.pendingItems_counts_unhandled_of_sample : ∃ engine,
    Transition.execute (fun _ _ => true) Engine.step
      (Engine.configured "default" 1 false) (sampleRun.take 9) = some engine ∧
    engine.coordinator.pendingItems = 1 ∧ engine.unhandled = [⟨sampleJob, 0⟩] ∧
    engine.coordinator.pendingItems ≤ 2 := by
  refine ⟨_, rfl, by decide, by decide, ?_⟩
  exact (Engine.pendingItems_counts_unhandled (Nat.le_refl 1) (Transition.reaches_of_execute
    (fun _ _ => of_decide_eq_true)
    (rfl : Transition.execute (fun engine action => decide (FetchesWithinSize engine action))
      Engine.step (Engine.configured "default" 1 false) (sampleRun.take 9) = some _)) rfl).2.2.2

end OddJob.Akka
