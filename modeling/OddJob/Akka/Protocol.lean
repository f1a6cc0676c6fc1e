import OddJob.Akka.Pending
import Mathlib.Data.List.Nodup
import Mathlib.Data.List.Perm.Subperm

/-! The commands of each dispatch, as far as its request and the result of it have come. -/

namespace OddJob.Akka

variable {Job : Type}

namespace Engine

/-- The request is with a worker, or its result waits for the coordinator. -/
def Underway (engine : Engine Job) (request : ExecuteJobRequest Job) : Prop :=
  request ∈ engine.waiting ∨ request ∈ engine.executing ∨
    ∃ outcome, (request, outcome) ∈ engine.results

private def placed (engine : Engine Job) : List (ExecuteJobRequest Job) :=
  engine.waiting ++ engine.executing ++ engine.results.map Prod.fst

private theorem underway_iff {engine : Engine Job} {request : ExecuteJobRequest Job} :
    engine.Underway request ↔ request ∈ engine.placed := by
  simp [Underway, placed]

private theorem mem_unhandled {engine : Engine Job} {request : ExecuteJobRequest Job} :
    request ∈ engine.unhandled ↔
      request ∈ engine.requests ∧ (engine.stage request.ticket).isHandled = false := by
  simp [unhandled, List.mem_filter]

end Engine

variable [OddJobWithMetadata Job] {engine : Engine Job} {request : ExecuteJobRequest Job}

private theorem Tracked.placed (tracked : Tracked engine) (member : request ∈ engine.placed) :
    engine.Fetched request ∧ (engine.stage request.ticket).inFlight = true := by
  rcases Engine.underway_iff.mpr member with waiting | executing | ⟨outcome, result⟩
  · obtain ⟨stage, fetched⟩ := tracked.waiting.fits _ waiting
    exact ⟨fetched, by rw [stage]; rfl⟩
  · obtain ⟨stage, fetched⟩ := tracked.executing.fits _ executing
    exact ⟨fetched, by rw [stage]; rfl⟩
  · obtain ⟨stage, fetched⟩ := tracked.results.fits _ result
    exact ⟨fetched, by rw [stage]; rfl⟩

private theorem Tracked.placed_nodup (tracked : Tracked engine) : engine.placed.Nodup := by
  have results : (engine.results.map Prod.fst).Nodup := by
    refine List.Nodup.of_map ExecuteJobRequest.ticket ?_
    rw [List.map_map]
    exact tracked.results.once
  refine List.nodup_append.mpr ⟨List.nodup_append.mpr ⟨tracked.waiting.once.of_map _,
    tracked.executing.once.of_map _, ?_⟩, results, ?_⟩
  · rintro request waiting _ executing rfl
    have first := (tracked.waiting.fits _ waiting).1
    rw [(tracked.executing.fits _ executing).1] at first
    cases first
  · rintro request before _ result rfl
    obtain ⟨⟨_, outcome⟩, arrived, rfl⟩ := List.mem_map.mp result
    have last := (tracked.results.fits _ arrived).1
    rcases List.mem_append.mp before with waiting | executing
    · rw [(tracked.waiting.fits _ waiting).1] at last
      cases last
    · rw [(tracked.executing.fits _ executing).1] at last
      cases last

/-- The requests whose result is not handled are where the counter looks for them. -/
theorem Balanced.underway_iff (balanced : Balanced engine) (tracked : Tracked engine)
    (told : Told engine) (member : request ∈ engine.requests) :
    engine.Underway request ↔ (engine.stage request.ticket).isHandled = false := by
  have inside : engine.placed ⊆ engine.unhandled := by
    intro other present
    obtain ⟨⟨taken, _⟩, flying⟩ := tracked.placed present
    have dispatched := told.requests _ _ taken
    refine Engine.mem_unhandled.mpr ⟨?_, ?_⟩
    · refine List.mem_of_mem_filter (p := fun entry => entry.ticket = other.ticket) ?_
      change other ∈ engine.requestsFor other.ticket
      rw [dispatched]
      cases stage : engine.stage other.ticket <;> simp_all [Stage.inFlight, Stage.requests]
    · cases stage : engine.stage other.ticket <;> simp_all [Stage.inFlight, Stage.isHandled]
  have all : engine.placed.Perm engine.unhandled := by
    refine (List.subperm_of_subset tracked.placed_nodup inside).perm_of_length_le ?_
    rw [balanced.located, Engine.placed, List.length_append, List.length_append, List.length_map]
    exact Nat.le_refl _
  rw [Engine.underway_iff, all.mem_iff, Engine.mem_unhandled]
  exact and_iff_right member

/-- The commands sent for one dispatch: none until the second send of the dispatch, then
the first of two, and the second with the handling of the result. -/
structure Engine.FollowsProtocol (engine : Engine Job) (request : ExecuteJobRequest Job) :
    Prop where
  marking : engine.isMarking request.ticket = true → engine.commandsFor request.ticket = []
  underway : engine.isMarking request.ticket = false → engine.Underway request →
    engine.commandsFor request.ticket =
      [⟨.markJobInProgress, OddJobWithMetadata.jobId request.jobData, request.ticket⟩]
  handled : ¬ engine.Underway request → ∃ outcome, ∃ mark : Mark,
    engine.endingsFor request.ticket = [outcome] ∧ mark.Settles request.jobData outcome ∧
    engine.commandsFor request.ticket =
      [⟨.markJobInProgress, OddJobWithMetadata.jobId request.jobData, request.ticket⟩,
        ⟨mark, OddJobWithMetadata.jobId request.jobData, request.ticket⟩]

private theorem Told.followsProtocol (told : Told engine) (tracked : Tracked engine)
    (balanced : Balanced engine) (member : request ∈ engine.requests) :
    engine.FollowsProtocol request := by
  have sent := told.commands _ _ (told.request_taken member)
  have ended := told.endings request.ticket
  obtain ⟨_, unfetched, present⟩ := told.request_alone member
  have underway := balanced.underway_iff tracked told member
  refine ⟨fun marking => ?_, fun announced flying => ?_, fun gone => ?_⟩
  · rwa [marking] at sent
  · rw [announced] at sent
    have open_ := underway.mp flying
    cases stage : engine.stage request.ticket with
    | fetched => exact absurd stage unfetched
    | missing => exact absurd stage present
    | waiting | executing | executed => simpa [stage, Stage.commands] using sent
    | handled => simp [stage, Stage.isHandled] at open_
  · have closed : (engine.stage request.ticket).isHandled = true := by
      simpa using mt underway.mpr gone
    cases stage : engine.stage request.ticket with
    | handled outcome now =>
      have announced : engine.isMarking request.ticket = false := by
        rw [← Bool.not_eq_true, Engine.isMarking_eq_true]
        rintro ⟨job, rest, phase⟩
        have flying := (tracked.marking job request.ticket rest phase).2
        rw [stage] at flying
        cases flying
      rw [stage, announced] at sent
      rw [stage] at ended
      exact ⟨outcome, _, ended, Engine.terminalMark_settles _ _ now, sent⟩
    | _ => simp [stage, Stage.isHandled] at closed

private theorem Tracked.typed (tracked : Tracked engine) (told : Told engine)
    (member : request ∈ engine.requests) : engine.Fetched request := by
  have taken := told.request_taken member
  obtain ⟨_, unfetched, present⟩ := told.request_alone member
  have suits := tracked.suits _ _ taken
  unfold Stage.Suits at suits
  split at suits
  · rcases suits with fresh | absent
    · exact absurd fresh unfetched
    · exact absurd absent present
  · exact ⟨taken, by rwa [Bool.not_eq_true] at *⟩

/-- A fetched job without a type is in what the `foreach` has to visit, or it was failed. -/
private theorem Tracked.missing (tracked : Tracked engine) (told : Told engine) {ticket : Nat}
    {job : Job} (taken : engine.taken[ticket]? = some job)
    (missing : OddJobWithMetadata.typeMissing job = true) :
    engine.requestsFor ticket = [] ∧
      ((job, ticket) ∈ engine.queued ∧ engine.commandsFor ticket = [] ∨
        engine.commandsFor ticket =
          [⟨.markJobFailed, OddJobWithMetadata.jobId job, ticket⟩]) := by
  have suits := tracked.suits ticket job taken
  have sent := told.commands ticket job taken
  have dispatched := told.requests ticket job taken
  simp only [Stage.Suits, missing, ↓reduceIte] at suits
  have unmarked : engine.isMarking ticket = false := by
    rw [← Bool.not_eq_true, Engine.isMarking_eq_true]
    rintro ⟨other, rest, phase⟩
    have typed := (tracked.marking other ticket rest phase).1
    obtain rfl := Option.some.inj (taken.symm.trans typed.1)
    exact absurd (missing.symm.trans typed.2) (by simp)
  rw [unmarked] at sent
  rcases suits with stage | stage
  · rw [stage] at sent dispatched
    have inside := (List.getElem?_eq_some_iff.mp taken).1
    obtain ⟨⟨other, _⟩, queued, rfl⟩ := List.mem_map.mp (tracked.reached ticket inside stage)
    obtain rfl := Option.some.inj (taken.symm.trans (tracked.queued.fits _ queued).2)
    exact ⟨dispatched, .inl ⟨queued, sent⟩⟩
  · rw [stage] at sent dispatched
    exact ⟨dispatched, .inr sent⟩

/-- Every dispatched job is marked in progress, and settled once its result is handled, by
the verdict its execution calls for; the queue layer processes the two in that order. A job
without a type is failed once instead. No other command is sent. -/
theorem Engine.commands_follow_protocol {queueName : String} {numWorkers : Nat}
    {aggressiveSweep : Bool} {engine : Engine Job}
    (reached : Transition.Reaches Engine.step Transition.anyAction
      (Engine.configured queueName numWorkers aggressiveSweep) engine) :
    (engine.requests.map ExecuteJobRequest.ticket).Nodup ∧
    (∀ request ∈ engine.requests, engine.Fetched request ∧ engine.FollowsProtocol request) ∧
    (∀ ticket job, engine.taken[ticket]? = some job →
      OddJobWithMetadata.typeMissing job = true →
      engine.requestsFor ticket = [] ∧
      ((job, ticket) ∈ engine.queued ∧ engine.commandsFor ticket = [] ∨
        engine.commandsFor ticket =
          [⟨.markJobFailed, OddJobWithMetadata.jobId job, ticket⟩])) ∧
    (∀ command ∈ engine.commands, command.ticket < engine.taken.length) ∧
    engine.processed <+: engine.commands := by
  have told := told_of_reaches reached
  have tracked := tracked_of_reaches reached
  have balanced := balanced_of_reaches reached
  refine ⟨told.requests_nodup, fun request member => ⟨tracked.typed told member,
    told.followsProtocol tracked balanced member⟩, fun _ _ => tracked.missing told, ?_, ?_⟩
  · intro command member
    by_contra outside
    have listed : command ∈ engine.commandsFor command.ticket :=
      List.mem_filter.mpr ⟨member, by simp⟩
    rw [(told.untaken command.ticket (Nat.not_lt.mp outside)).1] at listed
    cases listed
  · exact ⟨engine.unprocessed, (inOrder_of_reaches reached).symm⟩

/-- A batch of a job without a type and two with one, of which the second throws. -/
def batchRun : List (Action (SqlDbOddJob Unit Unit)) :=
  [.post .jobSweep, .receive 0 0 .returned, .layerReceive,
    .layerReply (some [{ sampleJob with jobId := 6, typeExecutedOn := none }, sampleJob,
      { sampleJob with jobId := 8 }]),
    .next 0 .threw, .next 0 .returned, .tellInProgress, .next 0 .returned, .workerReceive 0,
    .workerFinish 0 .returned, .tellInProgress, .next 0 .returned, .receive 0 4 .threw,
    .workerReceive 0, .workerFinish 0 .threw, .receive 0 5 .returned]

theorem Engine.commands_follow_protocol_of_batch : ∃ engine,
    Transition.execute (fun _ _ => true) Engine.step
      (Engine.configured "default" 1 false) batchRun = some engine ∧
    engine.commandsFor 0 = [⟨.markJobFailed, 6, 0⟩] ∧
    engine.commandsFor 1 = [⟨.markJobInProgress, 7, 1⟩, ⟨.markJobSuccess, 7, 1⟩] ∧
    engine.commandsFor 2 =
      [⟨.markJobInProgress, 8, 2⟩, ⟨.markJobInRetryAndIncrement 5, 8, 2⟩] ∧
    engine.FollowsProtocol ⟨sampleJob, 1⟩ := by
  refine ⟨_, rfl, by decide, by decide, by decide, ?_⟩
  have protocol := Engine.commands_follow_protocol (Transition.reaches_of_execute
    (fun _ _ _ => trivial)
    (rfl : Transition.execute (fun _ _ => true) Engine.step
      (Engine.configured "default" 1 false) batchRun = some _))
  exact (protocol.2.1 ⟨sampleJob, 1⟩ (by decide)).2

end OddJob.Akka
