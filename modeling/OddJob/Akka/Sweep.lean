import OddJob.Akka.Pending

/-! The sweep that takes a batch: it gets to its end, and by then every job of the batch
that has a type has been handed to a worker. -/

namespace OddJob.Akka

open Transition

variable {Job : Type} [OddJobWithMetadata Job] {engine after : Engine Job} {action : Action Job}

theorem taken_of_moves (move : Moves engine action after) : engine.taken <+: after.taken := by
  cases move with
  | fetchDelivered request batch busy waiting reply => exact List.prefix_append _ _
  | _ => exact List.prefix_rfl

theorem taken_of_reaches {allowed : Engine Job → Action Job → Prop}
    (reached : Reaches Engine.step allowed engine after) : engine.taken <+: after.taken := by
  apply reached.invariant List.prefix_rfl
  exact fun _ _ _ kept _ taken => kept.trans (taken_of_moves (moves_of_step taken))

/-- Between two messages the coordinator has handed every job with a type to a worker. -/
theorem Told.dispatched_of_idle (told : Told engine) (tracked : Tracked engine)
    (idle : engine.phase = .idle) {ticket : Nat} {job : Job}
    (taken : engine.taken[ticket]? = some job) (typed : OddJobWithMetadata.typeMissing job = false) :
    ⟨job, ticket⟩ ∈ engine.requests := by
  have inside := (List.getElem?_eq_some_iff.mp taken).1
  have visited : engine.stage ticket ≠ .fetched := by
    intro stage
    have left := tracked.reached ticket inside stage
    simp [Engine.queued, idle] at left
  have present : engine.stage ticket ≠ .missing := by
    simpa only [Stage.Suits, typed, Bool.false_eq_true, ↓reduceIte] using
      tracked.suits ticket job taken
  have one := told.requests ticket job taken
  have listed : ⟨job, ticket⟩ ∈ engine.requestsFor ticket := by
    rw [one]
    cases stage : engine.stage ticket <;> simp_all [Stage.requests]
  exact (List.mem_filter.mp listed).1

/-- A coordinator waits for jobs only while it has fewer than two for each worker. -/
structure Staffed (engine : Engine Job) : Prop where
  workers : engine.workers.length = engine.coordinator.workerCount
  unsaturated : ∀ ask, engine.phase = .awaitingJobs ask →
    engine.coordinator.pendingItems < engine.coordinator.workerCount * 2

theorem Staffed.moves (valid : Staffed engine) (move : Moves engine action after) :
    Staffed after := by
  obtain ⟨workers, unsaturated⟩ := valid
  cases move with
  | posted | ignored | replied | fetchStarted | commandProcessed | fetchLost =>
    exact ⟨workers, unsaturated⟩
  | shutDown => exact ⟨by simpa using workers, unsaturated⟩
  | lastReplied | timedOut | loopEnded | missingFailed | inProgressTold | acknowledged
  | fetchDelivered => exact ⟨workers, fun _ phase => by cases phase⟩
  | asked message rest idle split sweep running below => exact ⟨workers, fun _ _ => below⟩
  | saturated message rest extra state calls errors idle split sweep same silent left queue =>
    obtain ⟨pending, size, _⟩ := same
    exact ⟨workers.trans size.symm, by simpa only [pending, size] using unsaturated⟩
  | resultHandled request outcome now hook message rest idle split result =>
    exact ⟨workers, fun ask phase => absurd (idle.symm.trans phase) (by simp)⟩
  | dispatched =>
    exact ⟨by simpa [Engine.dispatch, Engine.record] using workers, fun _ phase => by cases phase⟩
  | storeFlushed rest free front =>
    refine ⟨workers, fun ask phase => unsaturated ask ?_⟩
    cases here : engine.phase <;> simp_all [Engine.layerReceive]
  | workerDrained | started | finished =>
    exact ⟨by simpa [Engine.workerReceive, Engine.workerFinish, Engine.record] using workers,
      unsaturated⟩

theorem staffed_of_reaches {queueName : String} {numWorkers : Nat} {aggressiveSweep : Bool}
    {allowed : Engine Job → Action Job → Prop}
    (reached : Reaches Engine.step allowed
      (Engine.configured queueName numWorkers aggressiveSweep) engine) : Staffed engine := by
  apply reached.invariant
  · exact ⟨List.length_replicate, fun _ phase => by cases phase⟩
  · exact fun _ _ _ valid _ taken => valid.moves (moves_of_step taken)

omit [OddJobWithMetadata Job] in
theorem Staffed.exists_worker (staffed : Staffed engine) (balanced : Balanced engine) {ask : Nat}
    (waiting : engine.phase = .awaitingJobs ask) : 0 < engine.workers.length := by
  have below := staffed.unsaturated ask waiting
  have pending := balanced.pending
  have workers := staffed.workers
  simp only [Engine.uncounted, waiting] at pending
  omega

/-- A pool with a worker takes the rest of the batch, one job after the other. -/
theorem loop_ends {rest : List (Job × Nat)} (looping : engine.phase = .queueing rest)
    (staffed : 0 < engine.workers.length) :
    ∃ final, Reaches Engine.step anyAction engine final ∧ final.phase = .idle := by
  induction rest generalizing engine with
  | nil =>
    have ended : engine.step (.next 0 .returned) = some { engine with phase := .idle } := by
      simp only [Engine.step, looping]
    exact ⟨_, .next .refl trivial ended, rfl⟩
  | cons entry rest ih =>
    obtain ⟨job, ticket⟩ := entry
    cases missing : OddJobWithMetadata.typeMissing job with
    | true =>
      have failed : engine.step (.next 0 .returned) =
          some (engine.failMissing job ticket rest .returned) := by
        simp only [Engine.step, looping, missing, ↓reduceIte]
      obtain ⟨final, later, idle⟩ := @ih (engine.failMissing job ticket rest .returned) rfl staffed
      exact ⟨final, .trans (.next .refl trivial failed) later, idle⟩
    | false =>
      let worker := engine.workers[0]
      have routed : engine.workers[0]? = some worker := List.getElem?_eq_getElem staffed
      let sent := engine.dispatch job ticket rest 0 worker
      have dispatched : engine.step (.next 0 .returned) = some sent := by
        simp only [Engine.step, looping, missing, routed, Bool.false_eq_true, ↓reduceIte,
          Option.map_some, sent]
      have counted : sent.step .tellInProgress = some (sent.tellInProgress job ticket rest) := rfl
      obtain ⟨final, later, idle⟩ := @ih (sent.tellInProgress job ticket rest) rfl (by
        simpa [sent, Engine.tellInProgress, Engine.tellLayer, Engine.dispatch, Engine.record]
          using staffed)
      exact ⟨final, .trans (.next (.next .refl trivial dispatched) trivial counted) later, idle⟩

end OddJob.Akka
