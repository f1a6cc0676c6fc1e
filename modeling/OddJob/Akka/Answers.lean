import OddJob.Akka.Drain

/-! The shutdown of an engine, from the outside: who asked for it is answered once, and
nothing is fetched for it any more. -/

namespace OddJob.Akka

open Transition

variable {Job : Type}

/-- Who sent a `ShutDownQueues`. -/
def CoordinatorMessage.requester? : CoordinatorMessage Job → Option Nat
  | .shutDownQueues requester => some requester
  | _ => none

def Turn.requester? : Turn Job → Option Nat
  | .posted message => message.requester?
  | .resent | .worked => none

namespace Engine

/-- Who has asked for a shutdown that the coordinator has not taken yet. -/
def asking (engine : Engine Job) : List Nat :=
  engine.mailbox.filterMap CoordinatorMessage.requester?

/-- Who has asked for a shutdown and has not been answered. -/
def owed (engine : Engine Job) : List Nat :=
  engine.asking ++
    if engine.acknowledged = [] then engine.coordinator.shutdownRequester.toList else []

end Engine

/-- The engine answers the requesters `asked`. -/
structure Answers (numWorkers : Nat) (engine : Engine Job) (asked : List Nat) : Prop where
  requested : engine.coordinator.shutdownRequester.isSome = engine.coordinator.shuttingDown
  told : asked.Perm (engine.acknowledged ++ engine.owed)
  answered : engine.acknowledged ≠ [] →
    engine.acknowledged = engine.coordinator.shutdownRequester.toList ∧
    engine.coordinator.shuttingDown = true ∧ engine.coordinator.shutdownCount = numWorkers ∧
    engine.isClosing = false
  closed : engine.coordinator.shuttingDown = true →
    engine.coordinator.shutdownCount = numWorkers →
    engine.isClosing = true ∨ engine.acknowledged ≠ []

namespace Answers

variable {numWorkers : Nat} {engine after : Engine Job} {asked : List Nat}

private theorem transfer (valid : Answers numWorkers engine asked)
    (requester : after.coordinator.shutdownRequester = engine.coordinator.shutdownRequester)
    (shutting : after.coordinator.shuttingDown = engine.coordinator.shuttingDown)
    (count : after.coordinator.shutdownCount = engine.coordinator.shutdownCount)
    (asking : after.asking.Perm engine.asking)
    (acknowledged : after.acknowledged = engine.acknowledged)
    (closing : after.isClosing = engine.isClosing) : Answers numWorkers after asked := by
  constructor
  · rw [requester, shutting]
    exact valid.requested
  · rw [acknowledged, Engine.owed, acknowledged, requester]
    exact valid.told.trans ((asking.symm.append_right _).append_left _)
  · rw [acknowledged, requester, shutting, count, closing]
    exact valid.answered
  · rw [acknowledged, shutting, count, closing]
    exact valid.closed

private theorem unanswered (valid : Answers numWorkers engine asked)
    (running : engine.coordinator.shuttingDown = false) : engine.acknowledged = [] := by
  by_contra answered
  exact absurd (running.symm.trans (valid.answered answered).2.1) (by simp)

private theorem asking_of_split {message : CoordinatorMessage Job}
    {rest : List (CoordinatorMessage Job)} (split : engine.mailbox.Perm (message :: rest))
    (other : message.requester? = none) :
    (rest.filterMap CoordinatorMessage.requester?).Perm engine.asking := by
  have kept := split.filterMap CoordinatorMessage.requester?
  rw [List.filterMap_cons_none other] at kept
  exact kept.symm

private theorem running_of_shutdown (stops : Stops numWorkers engine) {requester : Nat}
    {rest : List (CoordinatorMessage Job)}
    (split : engine.mailbox.Perm (.shutDownQueues requester :: rest)) :
    engine.coordinator.shuttingDown = false := by
  have once := stops.once
  have taken := (split.filter CoordinatorMessage.isStop).length_eq
  simp only [List.filter_cons, CoordinatorMessage.isStop, ↓reduceIte, List.length_cons] at taken
  cases shutting : engine.coordinator.shuttingDown with
  | false => rfl
  | true =>
    simp only [Engine.shutdowns, shutting, Bool.toNat_true] at once
    omega

private theorem posted (valid : Answers numWorkers engine asked) {requester : Nat}
    (first : engine.shutdowns = 0) : Answers numWorkers
      { engine with mailbox := engine.mailbox ++ [.shutDownQueues requester] }
      (asked ++ [requester]) := by
  have running : engine.coordinator.shuttingDown = false := by
    cases shutting : engine.coordinator.shuttingDown with
    | false => rfl
    | true => simp [Engine.shutdowns, shutting] at first
  have silent := valid.unanswered running
  have unrequested : engine.coordinator.shutdownRequester = none := by
    rw [← Option.not_isSome_iff_eq_none, valid.requested, running]
    simp
  refine ⟨valid.requested, ?_, valid.answered, valid.closed⟩
  have told := valid.told
  simp only [Engine.owed, Engine.asking, silent, unrequested, ↓reduceIte, Option.toList_none,
    List.append_nil, List.nil_append, List.filterMap_append] at told ⊢
  exact told.append_right _

private theorem shutDown (valid : Answers numWorkers engine asked) (stops : Stops numWorkers engine)
    (workers : 1 ≤ numWorkers) {requester : Nat} {rest : List (CoordinatorMessage Job)}
    (split : engine.mailbox.Perm (.shutDownQueues requester :: rest))
    (mailbox : after.mailbox = rest)
    (coordinator : after.coordinator = { engine.coordinator with
      shutdownRequester := some requester, shuttingDown := true })
    (acknowledged : after.acknowledged = engine.acknowledged) : Answers numWorkers after asked := by
  have running := running_of_shutdown stops split
  have silent := valid.unanswered running
  have unrequested : engine.coordinator.shutdownRequester = none := by
    rw [← Option.not_isSome_iff_eq_none, valid.requested, running]
    simp
  refine ⟨?_, ?_, ?_, ?_⟩
  · rw [coordinator]
    rfl
  · have moved : engine.asking.Perm (requester :: rest.filterMap CoordinatorMessage.requester?) :=
      split.filterMap CoordinatorMessage.requester?
    have told := valid.told
    simp only [Engine.owed, silent, unrequested, ↓reduceIte, Option.toList_none, List.append_nil,
      List.nil_append] at told
    simp only [Engine.owed, Engine.asking, acknowledged, silent, mailbox, coordinator, ↓reduceIte,
      Option.toList_some, List.nil_append]
    exact (told.trans moved).trans (List.perm_append_singleton _ _).symm
  · exact fun answered => absurd (acknowledged.trans silent) answered
  · intro _ counted
    have none := stops.replies
    simp only [running, Bool.false_eq_true, ↓reduceIte] at none
    simp only [coordinator] at counted
    omega

private theorem replied (valid : Answers numWorkers engine asked) (stops : Stops numWorkers engine)
    {rest : List (CoordinatorMessage Job)}
    (split : engine.mailbox.Perm (.queueShutDown :: rest)) : engine.acknowledged = [] := by
  by_contra answered
  obtain ⟨_, shutting, all, _⟩ := valid.answered answered
  have counted := stops.replies
  have taken := (split.filter CoordinatorMessage.isReply).length_eq
  simp only [List.filter_cons, CoordinatorMessage.isReply, ↓reduceIte, List.length_cons] at taken
  simp only [shutting, all, ↓reduceIte, Engine.replies] at counted
  omega

private theorem acknowledge (valid : Answers numWorkers engine asked)
    (stops : Stops numWorkers engine) (ready : engine.phase = .acknowledging) :
    Answers numWorkers { engine with
      phase := .idle
      acknowledged := engine.acknowledged ++ engine.coordinator.shutdownRequester.toList }
      asked := by
  have closing : engine.isClosing = true := by simp only [Engine.isClosing, ready]
  obtain ⟨shutting, all⟩ := stops.closing closing
  have silent : engine.acknowledged = [] := by
    by_contra answered
    exact absurd (closing.symm.trans (valid.answered answered).2.2.2) (by simp)
  obtain ⟨requester, known⟩ := Option.isSome_iff_exists.mp (valid.requested.trans shutting)
  have told := valid.told
  simp only [Engine.owed, silent, known, ↓reduceIte, Option.toList_some, List.nil_append] at told
  refine ⟨valid.requested, ?_, fun _ => ⟨by rw [silent]; rfl, shutting, all, rfl⟩, ?_⟩
  · simp only [Engine.owed, Engine.asking, silent, known, Option.toList_some, List.nil_append,
      List.cons_ne_nil, ↓reduceIte, List.append_nil]
    exact told.trans List.perm_append_comm
  · simp [known]

end Answers

section Steps

variable [OddJobWithMetadata Job] {numWorkers : Nat} {engine after : Engine Job}
  {asked : List Nat} {action : Action Job}

private theorem phase_of_step (ready : engine.phase = .acknowledging)
    (other : action ≠ .acknowledge) (taken : engine.step action = some after) :
    after.phase = .acknowledging := by
  cases action with
  | post message =>
    simp only [Engine.step] at taken
    split at taken <;> cases taken
    exact ready
  | receive | askTimeout | next | tellInProgress => simp [Engine.step, ready] at taken
  | acknowledge => exact absurd rfl other
  | layerReceive =>
    simp only [Engine.step] at taken
    split at taken <;> cases taken
    rename_i message rest _ _
    cases message <;> simp only [Engine.layerReceive, ready]
  | layerReply jobs =>
    obtain ⟨request, busy, same⟩ := Option.map_eq_some_iff.mp taken
    subst same
    cases jobs <;> simp only [Engine.layerReply, ready]
  | workerReceive index =>
    simp only [Engine.step] at taken
    split at taken
    · split at taken <;> cases taken
      rename_i message rest _ _
      cases message <;> exact ready
    · cases taken
  | workerFinish index outcome =>
    simp only [Engine.step] at taken
    split at taken
    · obtain ⟨request, busy, same⟩ := Option.map_eq_some_iff.mp taken
      exact same ▸ ready
    · cases taken

private theorem Answers.moves (valid : Answers numWorkers engine asked)
    (stops : Stops numWorkers engine) (workers : 1 ≤ numWorkers)
    (own : ∀ requester, action ≠ .post (.shutDownQueues requester))
    (other : action ≠ .acknowledge) (taken : engine.step action = some after) :
    Answers numWorkers after asked := by
  have sameAsking {extra : List (CoordinatorMessage Job)}
      (silent : ∀ message ∈ extra, message.requester? = none) :
      ((engine.mailbox ++ extra).filterMap CoordinatorMessage.requester?).Perm engine.asking := by
    rw [List.filterMap_append, List.filterMap_eq_nil_iff.mpr silent, List.append_nil]
    exact .refl _
  have open_ {phase : Phase Job} (here : engine.phase = phase)
      (open_ : phase ≠ .awaitingStore ∧ phase ≠ .acknowledging) : engine.isClosing = false := by
    simp only [Engine.isClosing, here]
    cases phase <;> simp_all
  cases moves_of_step taken with
  | posted message external sent =>
    refine valid.transfer rfl rfl rfl (sameAsking fun one member => ?_) rfl rfl
    obtain rfl := List.mem_singleton.mp member
    cases one with
    | shutDownQueues requester => exact absurd sent (own requester)
    | _ => rfl
  | ignored message rest idle split kind =>
    refine valid.transfer rfl rfl rfl (asking_of_split split ?_) rfl rfl
    cases message with
    | shutDownQueues requester => exact absurd rfl (kind.2.2 requester)
    | _ => rfl
  | shutDown requester rest idle split => exact valid.shutDown stops workers split rfl rfl rfl
  | replied rest idle split more =>
    have silent := valid.replied stops split
    have told := valid.told
    refine ⟨valid.requested, ?_, fun answered => absurd silent answered, fun _ all => ?_⟩
    · exact told.trans (((asking_of_split split rfl).symm.append_right _).append_left _)
    · exact absurd (all.trans stops.size.symm) more
  | lastReplied rest idle split all =>
    have silent := valid.replied stops split
    refine ⟨valid.requested, ?_, fun answered => absurd silent answered, fun _ _ => .inl rfl⟩
    exact valid.told.trans
      (((asking_of_split split rfl).symm.append_right _).append_left _)
  | asked message rest idle split sweep =>
    refine valid.transfer rfl rfl rfl (asking_of_split split ?_) rfl ?_
    · rcases sweep with same | same <;> subst same <;> rfl
    · exact (open_ idle (by simp)).symm
  | saturated message rest extra state calls errors idle split sweep same silent left queue =>
    refine valid.transfer same.shutdownRequester same.shuttingDown same.shutdownCount ?_ rfl rfl
    have gone := asking_of_split split (by
      rcases sweep with same | same <;> subst same <;> rfl)
    have none : extra.filterMap CoordinatorMessage.requester? = [] := by
      refine List.filterMap_eq_nil_iff.mpr fun one member => ?_
      rw [silent one member]
      rfl
    subst queue
    simpa [Engine.asking, none] using gone
  | resultHandled request outcome now hook message rest idle split result =>
    refine valid.transfer rfl rfl rfl (asking_of_split split ?_) rfl rfl
    subst result
    cases outcome <;> rfl
  | timedOut ask errors waiting =>
    exact valid.transfer rfl rfl rfl (.refl _) rfl (open_ waiting (by simp)).symm
  | loopEnded looping =>
    exact valid.transfer rfl rfl rfl (.refl _) rfl (open_ looping (by simp)).symm
  | missingFailed job ticket rest hook looping missing =>
    exact valid.transfer rfl rfl rfl (.refl _) rfl (open_ looping (by simp)).symm
  | dispatched job ticket rest index worker looping typed routee =>
    exact valid.transfer rfl rfl rfl (.refl _) rfl (open_ looping (by simp)).symm
  | inProgressTold job ticket rest marking =>
    exact valid.transfer rfl rfl rfl (.refl _) rfl (open_ marking (by simp)).symm
  | acknowledged requesters ready =>
    have phase := phase_of_step ready other taken
    cases phase
  | storeFlushed rest free front =>
    refine valid.transfer rfl rfl rfl (.refl _) rfl ?_
    cases phase : engine.phase <;> simp only [Engine.isClosing, Engine.layerReceive, phase]
  | fetchStarted | commandProcessed | fetchLost =>
    exact valid.transfer rfl rfl rfl (.refl _) rfl rfl
  | fetchDelivered request batch busy waiting =>
    exact valid.transfer rfl rfl rfl (.refl _) rfl (open_ waiting (by simp)).symm
  | workerDrained index worker rest found free front =>
    exact valid.transfer rfl rfl rfl (sameAsking (by simp [CoordinatorMessage.requester?])) rfl rfl
  | started => exact valid.transfer rfl rfl rfl (.refl _) rfl rfl
  | finished index worker request outcome found busy =>
    refine valid.transfer rfl rfl rfl (sameAsking fun one member => ?_) rfl rfl
    obtain rfl := List.mem_singleton.mp member
    cases outcome <;> rfl

end Steps

section Runs

variable [OddJobWithMetadata Job] {queueName : String} {numWorkers : Nat} {aggressiveSweep : Bool}
  {engine : Engine Job} {turns : List (Turn Job)}

theorem answers_of_reaches (workers : 1 ≤ numWorkers)
    (reached : Reaches (observed Engine.step Engine.turn)
      (fun record action => ShutsDownOnce record.1 action)
      (Engine.configured queueName numWorkers aggressiveSweep, []) (engine, turns)) :
    Answers numWorkers engine (turns.filterMap Turn.requester?) := by
  refine @Reaches.invariant_with _ _ _ _ _ _
    (fun record => Answers numWorkers record.1 (record.2.filterMap Turn.requester?))
    (fun record => Stops numWorkers record.1) reached ?_ ?_ ?_
  · exact fun _ earlier => stops_of_reaches (fun _ _ permitted => permitted) earlier.unobserved
  · exact ⟨rfl, .refl _, fun answered => absurd rfl answered, fun stopping => by cases stopping⟩
  rintro ⟨before, earlier⟩ action ⟨after, later⟩ stops _ valid once taken
  obtain ⟨stepped, seen⟩ := observed_eq_some_iff.mp taken
  simp only at seen stops valid stepped ⊢
  rw [seen, List.filterMap_append]
  by_cases shutdown : ∃ requester, action = .post (.shutDownQueues requester)
  · obtain ⟨requester, rfl⟩ := shutdown
    cases stepped
    exact valid.posted (once requester rfl)
  have unasked : (before.turn action after).toList.filterMap Turn.requester? = [] := by
    cases action with
    | post message =>
      cases message with
      | shutDownQueues requester => exact absurd ⟨requester, rfl⟩ shutdown
      | _ => rfl
    | _ => simp only [Engine.turn]; split <;> rfl
  rw [unasked, List.append_nil]
  by_cases answer : action = .acknowledge
  · subst answer
    simp only [Engine.step] at stepped
    split at stepped
    · rename_i ready
      cases stepped
      exact valid.acknowledge stops ready
    · cases stepped
  · exact valid.moves stops workers (fun requester same => shutdown ⟨requester, same⟩) answer
      stepped

/-- Nobody is told `QueueShutDown` who did not ask, or twice, and an engine that has come to
rest owes nobody an answer. -/
theorem Engine.answers_requester (workers : 1 ≤ numWorkers)
    (reached : Reaches (observed Engine.step Engine.turn)
      (fun record action => ShutsDownOnce record.1 action)
      (Engine.configured queueName numWorkers aggressiveSweep, []) (engine, turns)) :
    (engine.acknowledged = [] ∨ engine.acknowledged = turns.filterMap Turn.requester?) ∧
    (Drained engine → engine.acknowledged = turns.filterMap Turn.requester?) := by
  have valid := answers_of_reaches workers reached
  have stops : Stops numWorkers engine :=
    stops_of_reaches (fun _ _ permitted => permitted) reached.unobserved
  have answered (some_ : engine.acknowledged ≠ []) :
      engine.acknowledged = turns.filterMap Turn.requester? := by
    obtain ⟨all, shutting, _⟩ := valid.answered some_
    obtain ⟨requester, known⟩ := Option.isSome_iff_exists.mp (valid.requested.trans shutting)
    have none : engine.asking = [] := by
      have once := stops.once
      simp only [Engine.shutdowns, shutting, Bool.toNat_true] at once
      have taken : engine.mailbox.filter CoordinatorMessage.isStop = [] :=
        List.eq_nil_of_length_eq_zero (by omega)
      refine List.filterMap_eq_nil_iff.mpr fun message member => ?_
      have plain := List.filter_eq_nil_iff.mp taken message member
      cases message <;> first | rfl | exact absurd rfl plain
    have told := valid.told
    simp only [Engine.owed, none, some_, ↓reduceIte, List.append_nil] at told
    rw [all, known] at told ⊢
    exact (List.perm_singleton.mp told).symm
  refine ⟨or_iff_not_imp_left.mpr answered, fun drained => ?_⟩
  by_cases some_ : engine.acknowledged = []
  · have running : engine.coordinator.shuttingDown = false := by
      by_contra shutting
      rw [Bool.not_eq_false] at shutting
      have counted := stops.replies
      have mailboxes : engine.stops = [] := List.flatMap_eq_nil_iff.mpr fun worker member => by
        rw [(drained.workers worker member).1]
        rfl
      simp only [Engine.replies, mailboxes, drained.mailbox, List.filter_nil, List.length_nil,
        shutting, ↓reduceIte] at counted
      rcases valid.closed shutting (by omega) with closing | done
      · simp [Engine.isClosing, drained.idle] at closing
      · exact done some_
    have unrequested : engine.coordinator.shutdownRequester = none := by
      rw [← Option.not_isSome_iff_eq_none, valid.requested, running]
      simp
    have told := valid.told
    simp only [Engine.owed, Engine.asking, some_, unrequested, drained.mailbox, ↓reduceIte,
      Option.toList_none, List.filterMap_nil, List.append_nil] at told
    rw [some_, told.eq_nil]
  · exact answered some_

/-- Once the coordinator has taken a `ShutDownQueues`, sweeps and batches that are still
under way come to nothing: no job is fetched and none handed to a worker. -/
theorem Engine.fetches_nothing_after_shutdown {after : Engine Job}
    (reached : Reaches Engine.step anyAction
      (Engine.configured queueName numWorkers aggressiveSweep) engine)
    (stopping : engine.coordinator.shuttingDown = true)
    (later : Reaches Engine.step anyAction engine after) :
    after.coordinator.shuttingDown = true ∧ after.taken = engine.taken ∧
    after.requests = engine.requests ∧ after.asks = engine.asks := by
  refine @Reaches.invariant_with _ _ _ _ _ _
    (fun state => state.coordinator.shuttingDown = true ∧ state.taken = engine.taken ∧
      state.requests = engine.requests ∧ state.asks = engine.asks)
    Quiet later (fun _ run => quiet_of_reaches (reached.trans run))
    ⟨stopping, rfl, rfl, rfl⟩ ?_
  rintro before action next quiet _ ⟨shutting, taken, requests, asks⟩ _ step
  have calm {phase : Phase Job} (here : before.phase = phase)
      (busy : phase ≠ .idle ∧ phase ≠ .awaitingStore ∧ phase ≠ .acknowledging) : False := by
    rcases quiet shutting with idle | closing
    · exact busy.1 (here.symm.trans idle)
    · rw [Engine.isClosing, here] at closing
      cases phase <;> simp_all
  cases moves_of_step step with
  | asked message rest idle split sweep running =>
    exact absurd (shutting.symm.trans running) (by simp)
  | fetchDelivered request batch busy waiting => exact (calm waiting (by simp)).elim
  | dispatched job ticket rest index worker looping => exact (calm looping (by simp)).elim
  | missingFailed job ticket rest hook looping => exact (calm looping (by simp)).elim
  | inProgressTold job ticket rest marking => exact (calm marking (by simp)).elim
  | saturated message rest extra state calls errors idle split sweep same =>
    exact ⟨same.shuttingDown.trans shutting, taken, requests, asks⟩
  | shutDown => exact ⟨rfl, taken, requests, asks⟩
  | _ => exact ⟨shutting, taken, requests, asks⟩

end Runs

def answeredRun : List (Action (SqlDbOddJob Unit Unit)) :=
  shutdownRun [.receive 0 0 .returned, .receive 0 0 .returned, .layerReceive, .layerReceive,
    .layerReceive, .acknowledge]

theorem Engine.answers_requester_of_one : ∃ engine turns,
    execute (fun record action => permits record.1 action) (observed Engine.step Engine.turn)
      (Engine.configured "default" 1 false, []) answeredRun = some (engine, turns) ∧
    turns.filterMap Turn.requester? = [1] ∧ engine.acknowledged = [1] ∧
    (Drained engine → engine.acknowledged = turns.filterMap Turn.requester?) := by
  refine ⟨_, _, rfl, by decide, by decide, (Engine.answers_requester (Nat.le_refl 1)
    (reaches_of_execute (fun _ _ permitted => (permits_sound permitted).1)
      (rfl : execute (fun record action => permits record.1 action)
        (observed Engine.step Engine.turn) (Engine.configured "default" 1 false, []) answeredRun =
          some _))).2⟩

/-- A sweep and another shutdown that come while the engine shuts down. -/
theorem Engine.fetches_nothing_after_shutdown_of_sweep :
    ∃ engine after : Engine (SqlDbOddJob Unit Unit),
    execute (fun _ _ => true) Engine.step (Engine.configured "default" 1 true)
      [.post (.shutDownQueues 1), .post .jobSweep, .receive 0 0 .returned] = some engine ∧
    execute (fun _ _ => true) Engine.step engine [.post .jobSweep, .post (.shutDownQueues 2),
      .receive 0 0 .returned, .receive 0 0 .returned, .receive 0 0 .returned, .workerReceive 0,
      .receive 0 0 .returned] = some after ∧
    after.phase = .awaitingStore ∧
    after.coordinator.shuttingDown = true ∧ after.taken = engine.taken ∧
    after.requests = engine.requests ∧ after.asks = engine.asks := by
  refine ⟨_, _, rfl, rfl, rfl, Engine.fetches_nothing_after_shutdown (reaches_of_execute
    (fun _ _ _ => trivial)
    (rfl : execute (fun _ _ => true) Engine.step (Engine.configured "default" 1 true)
      [.post (.shutDownQueues 1), .post .jobSweep, .receive 0 0 .returned] = some _)) rfl
    (reaches_of_execute (fun _ _ _ => trivial)
      (rfl : execute (fun _ _ => true) Engine.step _ [.post .jobSweep, .post (.shutDownQueues 2),
        .receive 0 0 .returned, .receive 0 0 .returned, .receive 0 0 .returned, .workerReceive 0,
        .receive 0 0 .returned] = some _))⟩

end OddJob.Akka
