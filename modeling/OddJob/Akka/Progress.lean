import OddJob.Akka.Accounting

/-! What one move makes of the fetched jobs, and which command the queue layer is
about to process. -/

namespace OddJob.Akka

variable {Job : Type}

/-- The stages that follow each other. -/
inductive Stage.Leads : Stage → Stage → Prop where
  | missing : Leads .fetched .missing
  | dispatched : Leads .fetched .waiting
  | started : Leads .waiting .executing
  | finished (outcome : Outcome) : Leads .executing (.executed outcome)
  | handled (outcome : Outcome) (now : Ticks) : Leads (.executed outcome) (.handled outcome now)

/-- At most one fetched job comes further, or a batch arrives. -/
inductive Advance (engine : Engine Job) (action : Action Job) (after : Engine Job) : Prop where
  | still (taken : after.taken = engine.taken) (stage : after.stage = engine.stage)
      (began : after.began = engine.began)
  | delivered (batch : List Job) (reply : action = .layerReply (some batch))
      (taken : after.taken = engine.taken ++ batch) (stage : after.stage = engine.stage)
      (began : after.began = engine.began)
  | moved (ticket : Nat) (job : Job) (reached : Stage)
      (known : engine.taken[ticket]? = some job) (next : (engine.stage ticket).Leads reached)
      (taken : after.taken = engine.taken)
      (stage : after.stage = fun other => if other = ticket then reached else engine.stage other)
      (began : after.began =
        engine.began ++ if reached = .executing then [⟨job, ticket⟩] else [])

variable [OddJobWithMetadata Job]

theorem advance_of_moves {engine after : Engine Job} {action : Action Job}
    (tracked : Tracked engine) (move : Moves engine action after) :
    Advance engine action after := by
  cases move with
  | posted | ignored | shutDown | replied | lastReplied | asked | saturated | timedOut | loopEnded
  | inProgressTold | acknowledged | storeFlushed | fetchStarted | commandProcessed | fetchLost
  | workerDrained => exact .still rfl rfl rfl
  | fetchDelivered request batch busy waiting reply => exact .delivered batch reply rfl rfl rfl
  | resultHandled request outcome now hook message rest idle split result =>
    have member : (request, outcome) ∈ engine.results := by
      refine List.mem_filterMap.mpr ⟨message, split.mem_iff.mpr List.mem_cons_self, ?_⟩
      subst result
      cases outcome <;> rfl
    obtain ⟨stage, taken, _⟩ := tracked.results.fits (request, outcome) member
    have next : (engine.stage request.ticket).Leads (.handled outcome now) :=
      stage ▸ .handled outcome now
    exact .moved request.ticket request.jobData _ taken next rfl rfl (by
      simp [Engine.handleResult, Engine.guarded, Engine.record, Engine.tellLayer])
  | missingFailed job ticket rest hook looping missing =>
    have queued : engine.queued = (job, ticket) :: rest := by simp only [Engine.queued, looping]
    obtain ⟨stage, taken⟩ := tracked.queued.fits (job, ticket) (by simp [queued])
    have next : (engine.stage ticket).Leads .missing := stage ▸ .missing
    exact .moved ticket job _ taken next rfl rfl (by
      simp [Engine.failMissing, Engine.guarded, Engine.record, Engine.tellLayer])
  | dispatched job ticket rest index worker looping typed routee =>
    have queued : engine.queued = (job, ticket) :: rest := by simp only [Engine.queued, looping]
    obtain ⟨stage, taken⟩ := tracked.queued.fits (job, ticket) (by simp [queued])
    have next : (engine.stage ticket).Leads .waiting := stage ▸ .dispatched
    exact .moved ticket job _ taken next rfl rfl (by simp [Engine.dispatch, Engine.record])
  | started index worker request rest found free front =>
    have member : request ∈ engine.waiting := by
      refine List.mem_flatMap.mpr ⟨worker, List.mem_of_getElem? found, ?_⟩
      simp [JobWorker.waiting, front]
    obtain ⟨stage, taken, _⟩ := tracked.waiting.fits request member
    have next : (engine.stage request.ticket).Leads .executing := stage ▸ .started
    exact .moved request.ticket request.jobData _ taken next rfl rfl rfl
  | finished index worker request outcome found busy =>
    have member : request ∈ engine.executing :=
      List.mem_flatMap.mpr ⟨worker, List.mem_of_getElem? found, by simp [busy]⟩
    obtain ⟨stage, taken, _⟩ := tracked.executing.fits request member
    have next : (engine.stage request.ticket).Leads (.executed outcome) :=
      stage ▸ .finished outcome
    exact .moved request.ticket request.jobData _ taken next rfl rfl (by
      simp [Engine.workerFinish, Engine.record])

/-- The end of a `GetJobs` brings a batch or nothing. -/
theorem taken_of_layerReply {engine after : Engine Job} {jobs : Option (List Job)}
    (taken : engine.step (.layerReply jobs) = some after) :
    after.stage = engine.stage ∧ after.began = engine.began ∧
      (after.taken = engine.taken ∨
        ∃ batch, jobs = some batch ∧ after.taken = engine.taken ++ batch) := by
  obtain ⟨request, _, rfl⟩ := Option.map_eq_some_iff.mp taken
  cases jobs with
  | none => exact ⟨rfl, rfl, .inl rfl⟩
  | some batch =>
    simp only [Engine.layerReply]
    split
    · split
      · exact ⟨rfl, rfl, .inr ⟨batch, rfl, rfl⟩⟩
      · exact ⟨rfl, rfl, .inl rfl⟩
    · exact ⟨rfl, rfl, .inl rfl⟩

theorem processed_of_front {engine after : Engine Job} {command : Command}
    {rest : List LayerMessage} (front : engine.layer = .command command :: rest)
    (taken : engine.step .layerReceive = some after) :
    after = { engine with layer := rest, processed := engine.processed ++ [command] } := by
  simp only [Engine.step, front] at taken
  split at taken
  · rename_i message left free same
    cases same
    exact (Option.some.inj taken).symm
  · cases taken

theorem processed_of_moves {engine after : Engine Job} {action : Action Job}
    (move : Moves engine action after) : engine.processed <+: after.processed := by
  cases move with
  | commandProcessed command rest free front => exact List.prefix_append _ _
  | _ => exact List.prefix_rfl

/-- A command was sent for a fetched job, at a stage that calls for it. -/
theorem Told.command_stage {engine : Engine Job} {command : Command} (told : Told engine)
    (member : command ∈ engine.commands) :
    ∃ job, engine.taken[command.ticket]? = some job ∧
      engine.commandsFor command.ticket =
        (engine.stage command.ticket).commands job command.ticket ∧
      command ∈ (engine.stage command.ticket).commands job command.ticket := by
  have listed : command ∈ engine.commandsFor command.ticket :=
    List.mem_filter.mpr ⟨member, by simp⟩
  cases taken : engine.taken[command.ticket]? with
  | none =>
    rw [(told.untaken _ (List.getElem?_eq_none_iff.mp taken)).1] at listed
    cases listed
  | some job =>
    have sent := told.commands _ _ taken
    split at sent
    · rw [sent] at listed
      cases listed
    · exact ⟨job, rfl, sent, sent ▸ listed⟩

/-- What the queue layer processes next, and what it has processed for the same job. -/
inductive Front (engine : Engine Job) (command : Command) (job : Job) : Prop where
  | inProgress (mark : command.mark = .markJobInProgress)
      (present : engine.stage command.ticket ≠ .missing)
      (dispatched : engine.stage command.ticket ≠ .fetched)
      (first : ∀ earlier ∈ engine.processed, earlier.ticket ≠ command.ticket)
  | terminal (outcome : Outcome) (now : Ticks)
      (mark : command.mark = Engine.terminalMark job outcome now)
      (stage : engine.stage command.ticket = .handled outcome now)
      (second : ∀ earlier ∈ engine.processed, earlier.ticket = command.ticket →
        earlier.mark = .markJobInProgress)
  | missing (mark : command.mark = .markJobFailed)
      (stage : engine.stage command.ticket = .missing)
      (first : ∀ earlier ∈ engine.processed, earlier.ticket ≠ command.ticket)

theorem Told.front {engine : Engine Job} {command : Command} {rest : List LayerMessage}
    (told : Told engine) (inOrder : engine.InOrder)
    (front : engine.layer = .command command :: rest) :
    ∃ job, engine.taken[command.ticket]? = some job ∧
      command.jobId = OddJobWithMetadata.jobId job ∧ Front engine command job := by
  have split : engine.commands = engine.processed ++ command :: rest.filterMap
      LayerMessage.command? := by
    rw [inOrder, Engine.unprocessed, front]
    rfl
  obtain ⟨job, taken, sent, _⟩ :=
    told.command_stage (split ▸ List.mem_append_right _ List.mem_cons_self)
  have around : (engine.processed.filter fun earlier => earlier.ticket = command.ticket) ++
      command :: ((rest.filterMap LayerMessage.command?).filter fun later =>
        later.ticket = command.ticket) =
      (engine.stage command.ticket).commands job command.ticket := by
    rw [← sent, Engine.commandsFor, split]
    simp
  have first (none : (engine.processed.filter fun earlier => earlier.ticket = command.ticket) = []) :
      ∀ earlier ∈ engine.processed, earlier.ticket ≠ command.ticket := by
    intro earlier member same
    have absent := List.filter_eq_nil_iff.mp none earlier member
    simp [same] at absent
  refine ⟨job, taken, ?_⟩
  have single {only : Command}
      (one : (engine.stage command.ticket).commands job command.ticket = [only]) :
      command = only ∧ ∀ earlier ∈ engine.processed, earlier.ticket ≠ command.ticket := by
    rw [one] at around
    rcases List.append_eq_singleton_iff.mp around with ⟨none, same⟩ | ⟨_, impossible⟩
    · exact ⟨(List.cons.inj same).1, first none⟩
    · cases impossible
  cases stage : engine.stage command.ticket with
  | fetched =>
    rw [stage] at around
    exact absurd around (by simp [Stage.commands])
  | missing =>
    obtain ⟨same, none⟩ := single (by rw [stage]; rfl)
    exact ⟨congrArg Command.jobId same, .missing (congrArg Command.mark same) stage none⟩
  | waiting | executing | executed outcome =>
    obtain ⟨same, none⟩ := single (by rw [stage]; rfl)
    exact ⟨congrArg Command.jobId same,
      .inProgress (congrArg Command.mark same) (by simp [stage]) (by simp [stage]) none⟩
  | handled outcome now =>
    rw [stage] at around
    rcases List.append_eq_cons_iff.mp around with ⟨none, same⟩ | ⟨more, one, later⟩
    · have here := (List.cons.inj same).1
      exact ⟨congrArg Command.jobId here,
        .inProgress (congrArg Command.mark here) (by simp [stage]) (by simp [stage]) (first none)⟩
    · rcases List.append_eq_singleton_iff.mp later.symm with ⟨none, same⟩ | ⟨_, impossible⟩
      · have here := (List.cons.inj same).1
        refine ⟨congrArg Command.jobId here,
          .terminal outcome now (congrArg Command.mark here) stage fun earlier member ticket => ?_⟩
        have listed : earlier ∈ engine.processed.filter fun earlier =>
            earlier.ticket = command.ticket := List.mem_filter.mpr ⟨member, by simp [ticket]⟩
        rw [one, none] at listed
        rw [List.mem_singleton.mp listed]
      · cases impossible

theorem fetched_of_began {queueName : String} {numWorkers : Nat} {aggressiveSweep : Bool}
    {allowed : Engine Job → Action Job → Prop} {engine : Engine Job}
    (reached : Transition.Reaches Engine.step allowed
      (Engine.configured queueName numWorkers aggressiveSweep) engine) :
    ∀ request ∈ engine.began, request.jobData ∈ engine.taken := by
  induction reached with
  | refl =>
    intro request none
    cases none
  | next earlier _ stepped ih =>
    intro request member
    cases advance_of_moves (tracked_of_reaches earlier) (moves_of_step stepped) with
    | still taken _ began =>
      rw [taken]
      exact ih request (began ▸ member)
    | delivered batch _ taken _ began =>
      rw [taken]
      exact List.mem_append_left _ (ih request (began ▸ member))
    | moved ticket job stage known _ taken _ began =>
      rw [taken]
      rw [began] at member
      rcases List.mem_append.mp member with older | newer
      · exact ih request older
      · split at newer
        · rw [List.mem_singleton.mp newer]
          exact List.mem_of_getElem? known
        · cases newer

end OddJob.Akka
