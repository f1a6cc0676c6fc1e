import OddJob.Akka.Tracking

/-! What the coordinator tells the queue layer about each fetched job, and what
`PendingItems` counts. -/

namespace OddJob

/-- `mark` is the verdict the fetched job and the end of its execution call for. -/
structure Mark.Settles [OddJobWithMetadata Job] (mark : Mark) (job : Job)
    (outcome : Akka.Outcome) : Prop where
  success : mark = .markJobSuccess ↔ outcome = .returned
  failed : mark = .markJobFailed ↔ outcome = .threw ∧
    (OddJobWithMetadata.retryParameters job = none ∨
      ∃ parameters, OddJobWithMetadata.retryParameters job = some parameters ∧
        parameters.maxRetries ≤ parameters.retryCount)
  retry : (∃ lastAttempt, mark = .markJobInRetryAndIncrement lastAttempt) ↔ outcome = .threw ∧
    ∃ parameters, OddJobWithMetadata.retryParameters job = some parameters ∧
      parameters.retryCount < parameters.maxRetries
  terminal : mark ≠ .markJobInProgress

end OddJob

namespace OddJob.Akka

variable {Job : Type}

def Stage.isHandled : Stage → Bool
  | .handled _ _ => true
  | _ => false

/-- The calls of `ExecuteJob` that must have ended for a job at this stage. -/
def Stage.endings : Stage → List Outcome
  | .executed outcome | .handled outcome _ => [outcome]
  | _ => []

def Stage.requests (stage : Stage) (job : Job) (ticket : Nat) : List (ExecuteJobRequest Job) :=
  match stage with
  | .fetched | .missing => []
  | _ => [⟨job, ticket⟩]

/-- The commands that must have been sent for a job at this stage. -/
def Stage.commands [OddJobWithMetadata Job] (stage : Stage) (job : Job) (ticket : Nat) :
    List Command :=
  let id := OddJobWithMetadata.jobId job
  match stage with
  | .fetched => []
  | .missing => [⟨.markJobFailed, id, ticket⟩]
  | .handled outcome now =>
    [⟨.markJobInProgress, id, ticket⟩, ⟨Engine.terminalMark job outcome now, id, ticket⟩]
  | _ => [⟨.markJobInProgress, id, ticket⟩]

namespace Engine

def commandsFor (engine : Engine Job) (ticket : Nat) : List Command :=
  engine.commands.filter fun command => command.ticket = ticket

def requestsFor (engine : Engine Job) (ticket : Nat) : List (ExecuteJobRequest Job) :=
  engine.requests.filter fun request => request.ticket = ticket

def endingsFor (engine : Engine Job) (ticket : Nat) : List Outcome :=
  (engine.ended.filter fun entry => entry.1 = ticket).map Prod.snd

/-- The coordinator is between the two sends of a dispatch. -/
def isMarking (engine : Engine Job) (ticket : Nat) : Bool :=
  match engine.phase with
  | .marking _ marked _ => marked = ticket
  | _ => false

/-- The dispatched requests whose result has not been handled. -/
def unhandled (engine : Engine Job) : List (ExecuteJobRequest Job) :=
  engine.requests.filter fun request => !(engine.stage request.ticket).isHandled

end Engine

variable [OddJobWithMetadata Job]

/-- The engine has sent and done what the stage of each job says. -/
structure Told (engine : Engine Job) : Prop where
  commands : ∀ ticket job, engine.taken[ticket]? = some job → engine.commandsFor ticket =
    if engine.isMarking ticket then [] else (engine.stage ticket).commands job ticket
  requests : ∀ ticket job, engine.taken[ticket]? = some job →
    engine.requestsFor ticket = (engine.stage ticket).requests job ticket
  endings : ∀ ticket, engine.endingsFor ticket = (engine.stage ticket).endings
  untaken : ∀ ticket, engine.taken.length ≤ ticket →
    engine.commandsFor ticket = [] ∧ engine.requestsFor ticket = []

namespace Told

variable {engine after : Engine Job}

theorem transfer (valid : Told engine) (taken : after.taken = engine.taken)
    (stage : after.stage = engine.stage) (commands : after.commands = engine.commands)
    (requests : after.requests = engine.requests) (ended : after.ended = engine.ended)
    (marking : ∀ ticket, after.isMarking ticket = engine.isMarking ticket) : Told after := by
  have sameCommands : after.commandsFor = engine.commandsFor := by
    funext ticket
    rw [Engine.commandsFor, Engine.commandsFor, commands]
  have sameRequests : after.requestsFor = engine.requestsFor := by
    funext ticket
    rw [Engine.requestsFor, Engine.requestsFor, requests]
  have sameEndings : after.endingsFor = engine.endingsFor := by
    funext ticket
    rw [Engine.endingsFor, Engine.endingsFor, ended]
  constructor
  · intro ticket job
    rw [taken, sameCommands, marking, stage]
    exact valid.commands ticket job
  · rw [taken, sameRequests, stage]
    exact valid.requests
  · rw [sameEndings, stage]
    exact valid.endings
  · rw [taken, sameCommands, sameRequests]
    exact valid.untaken

theorem record {moved : Nat} {job : Job} {reached : Stage} (valid : Told engine)
    (known : engine.taken[moved]? = some job) (taken : after.taken = engine.taken)
    (stage : ∀ other, after.stage other = if other = moved then reached else engine.stage other)
    (others : ∀ other, other ≠ moved → after.commandsFor other = engine.commandsFor other ∧
      after.requestsFor other = engine.requestsFor other ∧
      after.endingsFor other = engine.endingsFor other ∧
      after.isMarking other = engine.isMarking other)
    (commands : after.commandsFor moved =
      if after.isMarking moved then [] else reached.commands job moved)
    (requests : after.requestsFor moved = reached.requests job moved)
    (endings : after.endingsFor moved = reached.endings) : Told after := by
  constructor
  · intro ticket other found
    rw [taken] at found
    by_cases same : ticket = moved
    · subst same
      obtain rfl : job = other := Option.some.inj (known.symm.trans found)
      simpa only [stage, ↓reduceIte] using commands
    · obtain ⟨sent, _, _, marking⟩ := others ticket same
      simpa only [stage, same, ↓reduceIte, sent, marking] using valid.commands ticket other found
  · intro ticket other found
    rw [taken] at found
    by_cases same : ticket = moved
    · subst same
      obtain rfl : job = other := Option.some.inj (known.symm.trans found)
      simpa only [stage, ↓reduceIte] using requests
    · obtain ⟨_, sent, _, _⟩ := others ticket same
      simpa only [stage, same, ↓reduceIte, sent] using valid.requests ticket other found
  · intro ticket
    by_cases same : ticket = moved
    · subst same
      simpa only [stage, ↓reduceIte] using endings
    · obtain ⟨_, _, done, _⟩ := others ticket same
      simpa only [stage, same, ↓reduceIte, done] using valid.endings ticket
  · intro ticket bound
    rw [taken] at bound
    have different : ticket ≠ moved := by
      have inside := (List.getElem?_eq_some_iff.mp known).1
      omega
    obtain ⟨sent, dispatched, _, _⟩ := others ticket different
    rw [sent, dispatched]
    exact valid.untaken ticket bound

end Told

theorem told_configured (queueName : String) (numWorkers : Nat) (aggressiveSweep : Bool) :
    Told (Engine.configured queueName numWorkers aggressiveSweep : Engine Job) := by
  constructor
  · intro ticket job taken
    simp [Engine.configured] at taken
  · intro ticket job taken
    simp [Engine.configured] at taken
  · intro ticket
    rfl
  · intro ticket _
    exact ⟨rfl, rfl⟩

omit [OddJobWithMetadata Job] in
private theorem isMarking_idle {engine : Engine Job} (idle : engine.phase = .idle) (ticket : Nat) :
    engine.isMarking ticket = false := by
  simp only [Engine.isMarking, idle]

private theorem Told.resultHandled {engine : Engine Job} (valid : Told engine)
    {request : ExecuteJobRequest Job} {outcome : Outcome} (now : Ticks) (hook : Outcome)
    (rest : List (CoordinatorMessage Job)) (idle : engine.phase = .idle)
    (taken : engine.taken[request.ticket]? = some request.jobData)
    (stage : engine.stage request.ticket = .executed outcome) :
    Told ({ engine with mailbox := rest }.handleResult request outcome now hook) := by
  have sent := valid.commands _ _ taken
  rw [isMarking_idle idle, stage] at sent
  have dispatched := valid.requests _ _ taken
  have done := valid.endings request.ticket
  rw [stage] at dispatched done
  refine valid.record taken rfl (fun _ => rfl) (fun other different => ⟨?_, rfl, rfl, rfl⟩) ?_ ?_ ?_
  · simp [Engine.commandsFor, Engine.handleResult, Engine.guarded, Engine.record,
      Engine.tellLayer, Ne.symm different]
  · have quiet : ({ engine with mailbox := rest }.handleResult request outcome now hook).isMarking
        request.ticket = false := isMarking_idle idle _
    have appended : ({ engine with mailbox := rest }.handleResult request outcome now hook).commandsFor
        request.ticket = engine.commandsFor request.ticket ++
          [⟨Engine.terminalMark request.jobData outcome now,
            OddJobWithMetadata.jobId request.jobData, request.ticket⟩] := by
      simp [Engine.commandsFor, Engine.handleResult, Engine.guarded, Engine.record,
        Engine.tellLayer]
    rw [quiet, appended, sent]
    rfl
  · exact dispatched
  · exact done

private theorem Told.missingFailed {engine : Engine Job} (valid : Told engine) {job : Job}
    {ticket : Nat} (rest : List (Job × Nat)) (hook : Outcome)
    (quiet : engine.isMarking ticket = false)
    (unmarked : ∀ other, engine.isMarking other = false)
    (taken : engine.taken[ticket]? = some job) (stage : engine.stage ticket = .fetched) :
    Told (engine.failMissing job ticket rest hook) := by
  have sent := valid.commands _ _ taken
  rw [quiet, stage] at sent
  have dispatched := valid.requests _ _ taken
  have done := valid.endings ticket
  rw [stage] at dispatched done
  refine valid.record taken rfl (fun _ => rfl) (fun other different => ⟨?_, rfl, rfl, ?_⟩) ?_ ?_ ?_
  · simp [Engine.commandsFor, Engine.failMissing, Engine.guarded, Engine.record,
      Engine.tellLayer, Ne.symm different]
  · exact (unmarked other).symm
  · simpa [Engine.commandsFor, Engine.failMissing, Engine.guarded, Engine.record,
      Engine.tellLayer, Stage.commands, Engine.isMarking] using sent
  · exact dispatched
  · exact done

private theorem Told.dispatched {engine : Engine Job} (valid : Told engine) {job : Job}
    {ticket : Nat} (rest : List (Job × Nat)) (index : Nat) (worker : JobWorker Job)
    (unmarked : ∀ other, engine.isMarking other = false)
    (taken : engine.taken[ticket]? = some job) (stage : engine.stage ticket = .fetched) :
    Told (engine.dispatch job ticket rest index worker) := by
  have sent := valid.commands _ _ taken
  rw [unmarked, stage] at sent
  have dispatched := valid.requests _ _ taken
  have done := valid.endings ticket
  rw [stage] at dispatched done
  refine valid.record taken rfl (fun _ => rfl) (fun other different => ⟨rfl, ?_, rfl, ?_⟩) ?_ ?_ ?_
  · simp [Engine.requestsFor, Engine.dispatch, Engine.record, Ne.symm different]
  · rw [unmarked]
    simp [Engine.isMarking, Engine.dispatch, Engine.record, Ne.symm different]
  · have marked : (engine.dispatch job ticket rest index worker).isMarking ticket = true := by
      simp [Engine.isMarking, Engine.dispatch, Engine.record]
    rw [marked]
    exact sent
  · simpa [Engine.requestsFor, Engine.dispatch, Engine.record, Stage.requests] using dispatched
  · exact done

private theorem Told.inProgressTold {engine : Engine Job} (valid : Told engine) {job : Job}
    {ticket : Nat} {rest : List (Job × Nat)} (marking : engine.phase = .marking job ticket rest)
    (taken : engine.taken[ticket]? = some job) (flying : (engine.stage ticket).inFlight = true) :
    Told (engine.tellInProgress job ticket rest) := by
  have sent := valid.commands _ _ taken
  have marked : engine.isMarking ticket = true := by simp [Engine.isMarking, marking]
  rw [marked] at sent
  have unchanged (other : Nat) : (engine.tellInProgress job ticket rest).stage other =
      if other = ticket then engine.stage ticket else engine.stage other := by
    split
    · rename_i same
      rw [same]
      rfl
    · rfl
  refine valid.record taken rfl unchanged (fun other different => ⟨?_, rfl, rfl, ?_⟩) ?_ ?_ ?_
  · simp [Engine.commandsFor, Engine.tellInProgress, Engine.tellLayer, Ne.symm different]
  · simp [Engine.isMarking, Engine.tellInProgress, Engine.tellLayer, marking, Ne.symm different]
  · have first : engine.commandsFor ticket ++
        [⟨.markJobInProgress, OddJobWithMetadata.jobId job, ticket⟩] =
          (engine.stage ticket).commands job ticket := by
      rw [sent]
      cases stage : engine.stage ticket <;> simp_all [Stage.commands, Stage.inFlight]
    simpa [Engine.commandsFor, Engine.tellInProgress, Engine.tellLayer, Engine.isMarking] using first
  · exact valid.requests _ _ taken
  · exact valid.endings _

private theorem Told.advanced {engine after : Engine Job} (valid : Told engine) {job : Job}
    {ticket : Nat} {reached : Stage} (taken : engine.taken[ticket]? = some job)
    (stage : ∀ other, after.stage other = if other = ticket then reached else engine.stage other)
    (batch : after.taken = engine.taken) (commands : after.commands = engine.commands)
    (requests : after.requests = engine.requests) (phase : after.phase = engine.phase)
    (others : ∀ other, other ≠ ticket → after.endingsFor other = engine.endingsFor other)
    (sent : reached.commands job ticket = (engine.stage ticket).commands job ticket)
    (dispatched : reached.requests job ticket = (engine.stage ticket).requests job ticket)
    (done : after.endingsFor ticket = reached.endings) : Told after := by
  have sameCommands (other : Nat) : after.commandsFor other = engine.commandsFor other := by
    rw [Engine.commandsFor, Engine.commandsFor, commands]
  have sameRequests (other : Nat) : after.requestsFor other = engine.requestsFor other := by
    rw [Engine.requestsFor, Engine.requestsFor, requests]
  have sameMarking (other : Nat) : after.isMarking other = engine.isMarking other := by
    rw [Engine.isMarking, Engine.isMarking, phase]
  refine valid.record taken batch stage (fun other different => ⟨sameCommands other,
    sameRequests other, others other different, sameMarking other⟩) ?_ ?_ done
  · rw [sameCommands, sameMarking, sent]
    exact valid.commands _ _ taken
  · rw [sameRequests, dispatched]
    exact valid.requests _ _ taken

private theorem Told.fetchDelivered {engine : Engine Job} (valid : Told engine)
    (tracked : Tracked engine) {request : GetJobs} (batch : List Job)
    (waiting : engine.phase = .awaitingJobs request.ask) :
    Told { engine with
      fetching := none
      taken := engine.taken ++ batch
      phase := .queueing (batch.zipIdx engine.taken.length) } := by
  have marking (ticket : Nat) : engine.isMarking ticket = false := by
    simp only [Engine.isMarking, waiting]
  constructor
  · intro ticket job found
    by_cases inside : ticket < engine.taken.length
    · rw [List.getElem?_append_left inside] at found
      have sent := valid.commands ticket job found
      rwa [marking] at sent
    · have fresh := tracked.untaken ticket (Nat.not_lt.mp inside)
      simp only [Engine.isMarking, fresh]
      exact (valid.untaken ticket (Nat.not_lt.mp inside)).1
  · intro ticket job found
    by_cases inside : ticket < engine.taken.length
    · rw [List.getElem?_append_left inside] at found
      exact valid.requests ticket job found
    · have fresh := tracked.untaken ticket (Nat.not_lt.mp inside)
      simp only [fresh]
      exact (valid.untaken ticket (Nat.not_lt.mp inside)).2
  · exact valid.endings
  · intro ticket bound
    simp only [List.length_append] at bound
    exact valid.untaken ticket (by omega)

theorem Told.moves {engine after : Engine Job} (valid : Told engine) (tracked : Tracked engine)
    (move : Moves engine action after) : Told after := by
  have calm {phase : Phase Job} (calm : ∀ job ticket rest, phase ≠ .marking job ticket rest)
      (here : engine.phase = phase) (ticket : Nat) : engine.isMarking ticket = false := by
    unfold Engine.isMarking
    split
    · exact absurd (here.symm.trans ‹_›) (calm _ _ _)
    · rfl
  cases move with
  | posted | ignored | shutDown | replied | saturated | fetchStarted | commandProcessed
  | fetchLost | workerDrained =>
    exact valid.transfer rfl rfl rfl rfl rfl fun _ => rfl
  | lastReplied _ here | asked _ _ here | timedOut _ _ here | loopEnded here
  | acknowledged _ here =>
    exact valid.transfer rfl rfl rfl rfl rfl fun ticket => (calm (by simp) here ticket).symm
  | resultHandled request outcome now hook message rest idle split result =>
    have member : (request, outcome) ∈ engine.results := by
      refine List.mem_filterMap.mpr ⟨message, split.mem_iff.mpr List.mem_cons_self, ?_⟩
      subst result
      cases outcome <;> rfl
    obtain ⟨stage, taken, _⟩ := tracked.results.fits (request, outcome) member
    exact valid.resultHandled now hook rest idle taken stage
  | missingFailed job ticket rest hook looping missing =>
    have queued : engine.queued = (job, ticket) :: rest := by simp only [Engine.queued, looping]
    obtain ⟨stage, taken⟩ := tracked.queued.fits (job, ticket) (by simp [queued])
    have unmarked := calm (by simp) looping
    exact valid.missingFailed rest hook (unmarked ticket) unmarked taken stage
  | dispatched job ticket rest index worker looping typed routee =>
    have queued : engine.queued = (job, ticket) :: rest := by simp only [Engine.queued, looping]
    obtain ⟨stage, taken⟩ := tracked.queued.fits (job, ticket) (by simp [queued])
    exact valid.dispatched rest index worker (calm (by simp) looping) taken stage
  | inProgressTold job ticket rest marking =>
    obtain ⟨⟨taken, _⟩, flying⟩ := tracked.marking job ticket rest marking
    exact valid.inProgressTold marking taken flying
  | storeFlushed rest free front =>
    refine valid.transfer rfl rfl rfl rfl rfl fun ticket => ?_
    cases phase : engine.phase <;> simp only [Engine.isMarking, Engine.layerReceive, phase]
  | fetchDelivered request batch busy waiting reply => exact valid.fetchDelivered tracked batch waiting
  | started index worker request rest found free front =>
    have member : request ∈ engine.waiting := by
      refine List.mem_flatMap.mpr ⟨worker, List.mem_of_getElem? found, ?_⟩
      simp [JobWorker.waiting, front]
    obtain ⟨stage, taken, _⟩ := tracked.waiting.fits request member
    have done := valid.endings request.ticket
    rw [stage] at done
    exact valid.advanced taken (fun _ => rfl) rfl rfl rfl rfl (fun _ _ => rfl)
      (by rw [stage]; rfl) (by rw [stage]; rfl) done
  | finished index worker request outcome found busy =>
    have member : request ∈ engine.executing :=
      List.mem_flatMap.mpr ⟨worker, List.mem_of_getElem? found, by simp [busy]⟩
    obtain ⟨stage, taken, _⟩ := tracked.executing.fits request member
    have done := valid.endings request.ticket
    rw [stage] at done
    refine valid.advanced taken (fun _ => rfl) rfl rfl rfl rfl (fun other different => ?_)
      (by rw [stage]; rfl) (by rw [stage]; rfl) ?_
    · simp [Engine.endingsFor, Engine.workerFinish, Engine.record, Ne.symm different]
    · simpa [Engine.endingsFor, Engine.workerFinish, Engine.record, Stage.endings] using done

theorem told_of_reaches {queueName : String} {numWorkers : Nat} {aggressiveSweep : Bool}
    {allowed : Engine Job → Action Job → Prop} {engine : Engine Job}
    (reached : Transition.Reaches Engine.step allowed
      (Engine.configured queueName numWorkers aggressiveSweep) engine) : Told engine :=
  reached.invariant_with Tracked (fun _ => tracked_of_reaches)
    (told_configured queueName numWorkers aggressiveSweep)
    fun _ _ _ tracked _ valid _ taken => valid.moves tracked (moves_of_step taken)

def LayerMessage.command? : LayerMessage → Option Command
  | .command sent => some sent
  | .shutDownQueues | .getJobs _ => none

/-- The commands that wait in the queue layer's mailbox. -/
def Engine.unprocessed (engine : Engine Job) : List Command :=
  engine.layer.filterMap LayerMessage.command?

/-- The queue layer processes the commands in the order they were sent. -/
def Engine.InOrder (engine : Engine Job) : Prop :=
  engine.commands = engine.processed ++ engine.unprocessed

theorem Engine.InOrder.moves {engine after : Engine Job} {action : Action Job}
    (valid : engine.InOrder) (move : Moves engine action after) : after.InOrder := by
  unfold Engine.InOrder Engine.unprocessed at *
  cases move with
  | posted | ignored | shutDown | replied | saturated | timedOut | loopEnded | dispatched
  | acknowledged | fetchLost | fetchDelivered | workerDrained | started | finished => exact valid
  | lastReplied | asked =>
    rw [List.filterMap_append]
    simpa [LayerMessage.command?, List.filterMap_cons] using valid
  | resultHandled =>
    simp [Engine.handleResult, Engine.guarded, Engine.record, Engine.tellLayer,
      LayerMessage.command?, valid]
  | missingFailed =>
    simp [Engine.failMissing, Engine.guarded, Engine.record, Engine.tellLayer,
      LayerMessage.command?, valid]
  | inProgressTold =>
    simp [Engine.tellInProgress, Engine.tellLayer, LayerMessage.command?, valid]
  | storeFlushed rest free front =>
    rw [front] at valid
    exact valid
  | fetchStarted request rest free front =>
    rw [front] at valid
    exact valid
  | commandProcessed command rest free front => simpa [front, LayerMessage.command?] using valid

theorem inOrder_of_reaches {queueName : String} {numWorkers : Nat} {aggressiveSweep : Bool}
    {allowed : Engine Job → Action Job → Prop} {engine : Engine Job}
    (reached : Transition.Reaches Engine.step allowed
      (Engine.configured queueName numWorkers aggressiveSweep) engine) : engine.InOrder :=
  reached.invariant rfl fun _ _ _ valid _ taken => valid.moves (moves_of_step taken)

theorem Told.request_taken {engine : Engine Job} (valid : Told engine)
    {request : ExecuteJobRequest Job} (member : request ∈ engine.requests) :
    engine.taken[request.ticket]? = some request.jobData := by
  have listed : request ∈ engine.requestsFor request.ticket :=
    List.mem_filter.mpr ⟨member, by simp⟩
  cases taken : engine.taken[request.ticket]? with
  | none =>
    rw [(valid.untaken _ (List.getElem?_eq_none_iff.mp taken)).2] at listed
    cases listed
  | some job =>
    rw [valid.requests _ _ taken] at listed
    cases stage : engine.stage request.ticket <;> simp [Stage.requests, stage] at listed <;>
      rw [listed]

/-- A request was dispatched only for a job that left the batch and has a type. -/
theorem Told.request_alone {engine : Engine Job} (valid : Told engine)
    {request : ExecuteJobRequest Job} (member : request ∈ engine.requests) :
    engine.requestsFor request.ticket = [request] ∧
      engine.stage request.ticket ≠ .fetched ∧ engine.stage request.ticket ≠ .missing := by
  have listed : request ∈ engine.requestsFor request.ticket :=
    List.mem_filter.mpr ⟨member, by simp⟩
  have only := valid.requests _ _ (valid.request_taken member)
  rw [only] at listed ⊢
  cases stage : engine.stage request.ticket <;> simp_all [Stage.requests]

theorem Told.requests_nodup {engine : Engine Job} (valid : Told engine) :
    (engine.requests.map ExecuteJobRequest.ticket).Nodup := by
  rw [List.nodup_iff_count]
  intro ticket
  by_cases present : ticket ∈ engine.requests.map ExecuteJobRequest.ticket
  · obtain ⟨request, member, same⟩ := List.mem_map.mp present
    subst same
    have alone := (valid.request_alone member).1
    have counted : (engine.requests.map ExecuteJobRequest.ticket).count request.ticket =
        (engine.requestsFor request.ticket).length := by
      rw [Engine.requestsFor, ← List.countP_eq_length_filter, List.count, List.countP_map]
      rfl
    rw [counted, alone]
    exact Nat.le_refl 1
  · rw [List.count_eq_zero_of_not_mem present]
    exact Nat.zero_le 1

omit [OddJobWithMetadata Job] in
theorem Engine.isMarking_eq_true {engine : Engine Job} {ticket : Nat} :
    engine.isMarking ticket = true ↔ ∃ job rest, engine.phase = .marking job ticket rest := by
  unfold Engine.isMarking
  split
  · rename_i job marked rest phase
    constructor
    · intro same
      obtain rfl : marked = ticket := by simpa using same
      exact ⟨job, rest, phase⟩
    · rintro ⟨_, _, here⟩
      cases phase.symm.trans here
      simp
  · rename_i absent
    constructor
    · intro impossible
      cases impossible
    · rintro ⟨job, rest, here⟩
      exact absurd here (absent _ _ _)

theorem Engine.exhausted_eq_true {job : Job} : Engine.exhausted job = true ↔
    OddJobWithMetadata.retryParameters job = none ∨
      ∃ parameters, OddJobWithMetadata.retryParameters job = some parameters ∧
        parameters.maxRetries ≤ parameters.retryCount := by
  unfold exhausted
  cases OddJobWithMetadata.retryParameters job <;> simp

theorem Engine.exhausted_eq_false {job : Job} : Engine.exhausted job = false ↔
    ∃ parameters, OddJobWithMetadata.retryParameters job = some parameters ∧
      parameters.retryCount < parameters.maxRetries := by
  unfold exhausted
  cases OddJobWithMetadata.retryParameters job <;> simp

theorem Engine.terminalMark_settles (job : Job) (outcome : Outcome) (now : Ticks) :
    (Engine.terminalMark job outcome now).Settles job outcome := by
  constructor
  · cases outcome <;> cases spent : Engine.exhausted job <;> simp [terminalMark, spent]
  · rw [← exhausted_eq_true]
    cases outcome <;> cases spent : Engine.exhausted job <;> simp [terminalMark, spent]
  · rw [← exhausted_eq_false]
    cases outcome <;> cases spent : Engine.exhausted job <;> simp [terminalMark, spent]
  · cases outcome <;> cases spent : Engine.exhausted job <;> simp [terminalMark, spent]

end OddJob.Akka
