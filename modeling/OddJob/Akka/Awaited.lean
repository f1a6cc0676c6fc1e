import OddJob.Akka.Custody
import OddJob.Akka.Drain

/-! The one fetch that the coordinator waits for. As long as it does not give up waiting,
every batch that the queue layer fetches comes into its hands. -/

namespace OddJob.Akka

variable {Job : Type}

def LayerMessage.request? : LayerMessage → Option GetJobs
  | .getJobs request => some request
  | .shutDownQueues | .command _ => none

namespace Engine

/-- The fetches that were asked for and not answered. -/
def asked (engine : Engine Job) : List GetJobs :=
  engine.fetching.toList ++ engine.layer.filterMap LayerMessage.request?

/-- At most one fetch is asked for, and the coordinator waits for it. -/
def Awaits (engine : Engine Job) : Prop :=
  engine.asked = [] ∨
    ∃ request, engine.asked = [request] ∧ engine.phase = .awaitingJobs request.ask

variable {engine after : Engine Job} {action : Action Job} {request : GetJobs}

/-- A coordinator that waits for no fetch has asked for none. -/
theorem Awaits.unasked (valid : engine.Awaits) (free : ∀ ask, engine.phase ≠ .awaitingJobs ask) :
    engine.asked = [] := by
  rcases valid with none | ⟨request, _, waiting⟩
  · exact none
  · exact absurd waiting (free request.ask)

/-- The queue layer works on the fetch that the coordinator waits for. -/
theorem Awaits.answered (valid : engine.Awaits) (busy : engine.fetching = some request) :
    engine.phase = .awaitingJobs request.ask ∧
      engine.layer.filterMap LayerMessage.request? = [] := by
  rcases valid with none | ⟨other, one, waiting⟩
  · rw [asked, busy] at none
    cases none
  · rw [asked, busy] at one
    obtain ⟨same, rest⟩ := List.cons.inj one
    exact ⟨same ▸ waiting, rest⟩

theorem handleSweep_awaits (none : engine.asked = []) (silent : Bool) (now : Ticks)
    (hook : Outcome) : (engine.handleSweep silent now hook).Awaits := by
  simp only [handleSweep]
  split
  · refine .inr ⟨⟨engine.asks, engine.coordinator.queueName, engine.coordinator.workerCount⟩, ?_,
      rfl⟩
    rw [asked, List.filterMap_append, ← List.append_assoc]
    exact congrArg (· ++ _) none
  · cases silent <;> cases engine.coordinator.aggressiveSweep <;> exact .inl none

private theorem asked_append {message : LayerMessage} (none : engine.asked = [])
    (other : message.request? = Option.none) :
    engine.fetching.toList ++ (engine.layer ++ [message]).filterMap LayerMessage.request? =
      [] := by
  rw [List.filterMap_append, ← List.append_assoc, List.filterMap_cons_none other]
  exact (List.append_nil _).trans none

variable [OddJobWithMetadata Job]

private theorem receive_awaits (none : engine.asked = []) (message : CoordinatorMessage Job)
    (now : Ticks) (hook : Outcome) : (engine.receive message now hook).Awaits := by
  cases message with
  | shutDownQueues requester | custom => exact .inl none
  | jobSuceeded request | jobFailed request => exact .inl (asked_append none rfl)
  | queueShutDown =>
    simp only [Engine.receive]
    split
    · exact .inl (asked_append none rfl)
    · exact .inl none
  | jobSweep | silentRetrySweep =>
    simp only [Engine.receive]
    split
    · exact .inl none
    · exact handleSweep_awaits none _ now hook

/-- As long as the coordinator does not give up, it waits for what it asked for. -/
theorem Awaits.step (valid : engine.Awaits) (taken : engine.step action = some after)
    (patient : ∀ hook, action ≠ .askTimeout hook) : after.Awaits := by
  cases action with
  | askTimeout hook => exact absurd rfl (patient hook)
  | post message =>
    obtain ⟨_, ⟨⟩⟩ := Option.ite_none_right_eq_some.mp taken
    exact valid
  | receive index now hook =>
    simp only [Engine.step] at taken
    split at taken
    · rename_i idle found
      cases taken
      have none : ({ engine with mailbox := engine.mailbox.eraseIdx index } : Engine Job).asked =
          [] := valid.unasked (by simp [idle])
      exact receive_awaits none _ now hook
    · cases taken
  | next index hook =>
    simp only [Engine.step] at taken
    split at taken
    · rename_i looping
      cases taken
      exact .inl (valid.unasked (by simp [looping]))
    · rename_i job ticket rest looping
      have none := valid.unasked (by simp [looping])
      split at taken
      · cases taken
        exact .inl (asked_append none rfl)
      · obtain ⟨worker, _, rfl⟩ := Option.map_eq_some_iff.mp taken
        exact .inl none
    · cases taken
  | tellInProgress =>
    simp only [Engine.step] at taken
    split at taken
    · rename_i marking
      cases taken
      exact .inl (asked_append (valid.unasked (by simp [marking])) rfl)
    · cases taken
  | acknowledge =>
    simp only [Engine.step] at taken
    split at taken
    · rename_i acknowledging
      cases taken
      exact .inl (valid.unasked (by simp [acknowledging]))
    · cases taken
  | layerReceive =>
    simp only [Engine.step] at taken
    split at taken
    · rename_i message rest free front
      cases taken
      unfold Awaits asked at valid ⊢
      rw [free, front] at valid
      cases message with
      | shutDownQueues =>
        rcases valid with none | ⟨request, one, waiting⟩
        · left
          simpa [layerReceive, free, List.filterMap_cons, LayerMessage.request?] using none
        · right
          exact ⟨request, by simpa [layerReceive, free, List.filterMap_cons, LayerMessage.request?] using one,
            by simp [layerReceive, waiting]⟩
      | getJobs request | command command =>
        simpa [layerReceive, free, List.filterMap_cons, LayerMessage.request?] using valid
    · cases taken
  | layerReply jobs =>
    obtain ⟨request, busy, rfl⟩ := Option.map_eq_some_iff.mp taken
    obtain ⟨waiting, rest⟩ := valid.answered busy
    left
    cases jobs with
    | none => exact rest
    | some batch => simp [layerReply, waiting, asked, rest]
  | workerReceive index =>
    simp only [Engine.step] at taken
    split at taken
    · split at taken
      · rename_i message rest free front
        cases taken
        cases message <;> exact valid
      · cases taken
    · cases taken
  | workerFinish index outcome =>
    simp only [Engine.step] at taken
    split at taken
    · obtain ⟨request, _, rfl⟩ := Option.map_eq_some_iff.mp taken
      exact valid
    · cases taken

end Engine

variable [OddJobWithMetadata Job] {engine after : Engine Job} {command : Command}
  {rest : List LayerMessage} {job : Job}

/-- A batch that the coordinator waits for comes into its hands whole. -/
theorem held_of_delivered (told : Told engine) (inOrder : engine.InOrder)
    (valid : engine.Awaits) {batch : List Job}
    (taken : engine.step (.layerReply (some batch)) = some after) :
    after.held = engine.held ++ batch.zipIdx engine.taken.length := by
  obtain ⟨request, busy, rfl⟩ := Option.map_eq_some_iff.mp taken
  obtain ⟨waiting, _⟩ := valid.answered busy
  simp only [Engine.layerReply, waiting, ↓reduceIte]
  rw [Engine.held, List.zipIdx_append, Nat.zero_add, List.filter_append]
  congr 1
  refine List.filter_eq_self.mpr fun entry member => ?_
  have later : engine.taken.length ≤ entry.2 := (List.mem_zipIdx member).1
  rw [Bool.not_eq_true', Engine.released, List.any_eq_false]
  intro command processed
  rw [decide_eq_true_eq]
  rintro ⟨_, same⟩
  have listed : command ∈ engine.commandsFor entry.2 := List.mem_filter.mpr
    ⟨inOrder ▸ List.mem_append_left _ processed, decide_eq_true same⟩
  rw [(told.untaken entry.2 later).1] at listed
  cases listed

omit [OddJobWithMetadata Job] in
/-- A command takes no job but its own out of the hands of the engine. -/
theorem held_of_other (processed : after.processed = engine.processed ++ [command])
    (taken : after.taken = engine.taken) {entry : Job × Nat} (listed : entry ∈ engine.held)
    (other : entry.2 ≠ command.ticket) : entry ∈ after.held := by
  obtain ⟨known, unreleased⟩ := Engine.mem_held.mp listed
  refine Engine.mem_held.mpr ⟨taken ▸ known, ?_⟩
  rw [Engine.released] at unreleased ⊢
  rw [processed, List.any_append, unreleased]
  simp [other.symm]

/-- An engine at rest has told its store the end of every job. -/
theorem held_of_drained {queueName : String} {numWorkers : Nat} {aggressiveSweep : Bool}
    {allowed : Engine Job → Action Job → Prop} (drained : Drained engine)
    (reached : Transition.Reaches Engine.step allowed
      (Engine.configured queueName numWorkers aggressiveSweep) engine) : engine.held = [] := by
  have finished := drained.finished reached
  refine List.eq_nil_iff_forall_not_mem.mpr fun ⟨job, ticket⟩ listed => ?_
  obtain ⟨known, unreleased⟩ := Engine.mem_held.mp listed
  obtain ⟨command, sent, last⟩ : ∃ command ∈ engine.commandsFor ticket,
      command.mark ≠ .markJobInProgress := by
    have settled := finished.settled ticket job known
    unfold Engine.Settled at settled
    split at settled
    · exact ⟨_, settled.2 ▸ List.mem_singleton_self _, by simp⟩
    · obtain ⟨outcome, mark, settles, _, commands⟩ := settled
      refine ⟨⟨mark, _, ticket⟩, commands ▸ List.mem_cons_of_mem _ (List.mem_singleton_self _), ?_⟩
      exact settles.terminal
  obtain ⟨listed, same⟩ := List.mem_filter.mp sent
  have done : engine.released ticket = true := List.any_eq_true.mpr
    ⟨command, finished.processed ▸ listed, by simp [last, of_decide_eq_true same]⟩
  rw [unreleased] at done
  cases done

end OddJob.Akka
