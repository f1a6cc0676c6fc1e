import OddJob.Akka.Shutdown

/-! Saturation. What the coordinator counts of the sweeps that came when it had enough to
do, against the sweeps that it handled. -/

namespace OddJob.Akka

open Transition

variable {Job : Type}

/-- The kind of a sweep: `SilentRetrySweep` or not. -/
def CoordinatorMessage.sweep? : CoordinatorMessage Job → Option Bool
  | .jobSweep => some false
  | .silentRetrySweep => some true
  | _ => none

def CoordinatorMessage.isSilent : CoordinatorMessage Job → Bool
  | .silentRetrySweep => true
  | _ => false

/-- A sweep that was handled: its kind, whether `PendingItems` had reached the limit by
then, and the calls of `OnJobQueueSaturated` that it made. -/
structure Sweep where
  silent : Bool
  saturated : Bool
  calls : List (Ticks × Int × Int)
  deriving DecidableEq

/-- A `JobSweep` that came at the limit. -/
def Sweep.isPulse (sweep : Sweep) : Bool := sweep.saturated && !sweep.silent

/-- The pulses since the last sweep of either kind that came below the limit. -/
def pulsesInARow (sweeps : List Sweep) : Nat :=
  (sweeps.reverse.takeWhile Sweep.saturated).countP Sweep.isPulse

namespace Engine

/-- `PendingItems >= WorkerCount * 2` -/
def isSaturated (engine : Engine Job) : Bool :=
  !(engine.coordinator.pendingItems < engine.coordinator.workerCount * 2)

/-- The silent sweeps that wait in the mailbox. -/
def silentSweeps (engine : Engine Job) : Nat := engine.mailbox.countP CoordinatorMessage.isSilent

/-- The sweep that an action makes the coordinator handle. -/
def sweep (engine : Engine Job) (action : Action Job) (after : Engine Job) : Option Sweep :=
  match action with
  | .receive index _ _ =>
    if engine.coordinator.shuttingDown then none
    else (engine.mailbox[index]?.bind CoordinatorMessage.sweep?).map fun silent => {
      silent
      saturated := engine.isSaturated
      calls := after.saturated.drop engine.saturated.length }
  | _ => none

/-- The action takes a `ShutDownQueues` out of the mailbox. -/
def takesShutDown (engine : Engine Job) : Action Job → Bool
  | .receive index _ _ => engine.mailbox[index]?.any CoordinatorMessage.isStop
  | _ => false

end Engine

/-- Nobody has been told to shut down. -/
structure Unstopped (engine : Engine Job) : Prop where
  running : engine.coordinator.shuttingDown = false
  workers : ∀ worker ∈ engine.workers, .shutDownQueues ∉ worker.mailbox
  mailbox : .queueShutDown ∉ engine.mailbox

/-- Nothing that is counted changes, and nobody is told to shut down. -/
structure Still (engine after : Engine Job) : Prop where
  start : after.coordinator.saturationStartTime = engine.coordinator.saturationStartTime
  pulses : after.coordinator.saturationPulseCount = engine.coordinator.saturationPulseCount
  life : after.coordinator.queueLifeSaturationPulseCount =
    engine.coordinator.queueLifeSaturationPulseCount
  aggressive : after.coordinator.aggressiveSweep = engine.coordinator.aggressiveSweep
  calls : after.saturated = engine.saturated
  silent : after.silentSweeps = engine.silentSweeps
  unstopped : Unstopped engine → Unstopped after

/-- An action makes the coordinator handle a sweep, or it leaves what is counted alone. -/
inductive Course (engine : Engine Job) (action : Action Job) (after : Engine Job) : Prop where
  | swept (index : Nat) (now : Ticks) (hook : Outcome) (message : CoordinatorMessage Job)
      (silent : Bool) (received : action = .receive index now hook)
      (found : engine.mailbox[index]? = some message) (kind : message.sweep? = some silent)
      (handled : after =
        { engine with mailbox := engine.mailbox.eraseIdx index }.handleSweep silent now hook) :
      Course engine action after
  | still (unswept : engine.sweep action after = none) (still : Still engine after) :
      Course engine action after

section Actions

variable {engine after : Engine Job}

private theorem silent_erase {mailbox : List (CoordinatorMessage Job)} {index : Nat}
    {message : CoordinatorMessage Job} (found : mailbox[index]? = some message) :
    (mailbox.eraseIdx index).countP CoordinatorMessage.isSilent + message.isSilent.toNat =
      mailbox.countP CoordinatorMessage.isSilent := by
  obtain ⟨inside, same⟩ := List.getElem?_eq_some_iff.mp found
  have split := List.getElem_cons_eraseIdx_perm inside
  rw [← split.countP_eq, List.countP_cons, same]
  cases message.isSilent <;> rfl

private theorem Unstopped.worked (unstopped : Unstopped engine) {index : Nat}
    {worker : JobWorker Job} {extra : List (CoordinatorMessage Job)}
    (running : after.coordinator.shuttingDown = engine.coordinator.shuttingDown)
    (workers : after.workers = engine.workers.set index worker)
    (mailbox : after.mailbox = engine.mailbox ++ extra)
    (quiet : .shutDownQueues ∉ worker.mailbox) (silent : .queueShutDown ∉ extra) :
    Unstopped after := by
  refine ⟨running.trans unstopped.running, ?_, ?_⟩
  · rw [workers]
    intro other member
    rcases List.mem_or_eq_of_mem_set member with older | same
    · exact unstopped.workers other older
    · exact same ▸ quiet
  · rw [mailbox, List.mem_append]
    exact fun member => member.elim unstopped.mailbox silent

private theorem Unstopped.transfer (unstopped : Unstopped engine)
    (running : after.coordinator.shuttingDown = engine.coordinator.shuttingDown)
    (workers : after.workers = engine.workers)
    (mailbox : after.mailbox.Sublist engine.mailbox) : Unstopped after :=
  ⟨running.trans unstopped.running, workers ▸ unstopped.workers,
    fun member => unstopped.mailbox (mailbox.subset member)⟩

private theorem still_of_receive {index : Nat} {message : CoordinatorMessage Job}
    (found : engine.mailbox[index]? = some message) (loud : message.isSilent = false)
    (start : after.coordinator.saturationStartTime = engine.coordinator.saturationStartTime)
    (pulses : after.coordinator.saturationPulseCount = engine.coordinator.saturationPulseCount)
    (life : after.coordinator.queueLifeSaturationPulseCount =
      engine.coordinator.queueLifeSaturationPulseCount)
    (aggressive : after.coordinator.aggressiveSweep = engine.coordinator.aggressiveSweep)
    (running : after.coordinator.shuttingDown = engine.coordinator.shuttingDown)
    (calls : after.saturated = engine.saturated) (workers : after.workers = engine.workers)
    (mailbox : after.mailbox = engine.mailbox.eraseIdx index) : Still engine after := by
  have silent := silent_erase found
  rw [loud, Bool.toNat_false, Nat.add_zero] at silent
  refine ⟨start, pulses, life, aggressive, calls, ?_, fun unstopped => ?_⟩
  · rw [Engine.silentSweeps, mailbox, silent]
    rfl
  · exact unstopped.transfer running workers (mailbox ▸ List.eraseIdx_sublist _ _)

private theorem still_of_untouched
    (start : after.coordinator.saturationStartTime = engine.coordinator.saturationStartTime)
    (pulses : after.coordinator.saturationPulseCount = engine.coordinator.saturationPulseCount)
    (life : after.coordinator.queueLifeSaturationPulseCount =
      engine.coordinator.queueLifeSaturationPulseCount)
    (aggressive : after.coordinator.aggressiveSweep = engine.coordinator.aggressiveSweep)
    (running : after.coordinator.shuttingDown = engine.coordinator.shuttingDown)
    (calls : after.saturated = engine.saturated) (workers : after.workers = engine.workers)
    (mailbox : after.mailbox = engine.mailbox) : Still engine after := by
  refine ⟨start, pulses, life, aggressive, calls, ?_, fun unstopped => ?_⟩
  · rw [Engine.silentSweeps, mailbox]
    rfl
  · exact unstopped.transfer running workers (mailbox ▸ List.Sublist.refl _)

private theorem still_of_post {message : CoordinatorMessage Job}
    (external : message.external = true) :
    Still engine { engine with mailbox := engine.mailbox ++ [message] } := by
  have loud : message.isSilent = false := by
    cases message <;> first | rfl | cases external
  refine ⟨rfl, rfl, rfl, rfl, rfl, ?_, fun unstopped => ⟨unstopped.running, unstopped.workers, ?_⟩⟩
  · simp [Engine.silentSweeps, loud]
  · rw [List.mem_append]
    rintro (older | newer)
    · exact unstopped.mailbox older
    · cases List.mem_singleton.mp newer
      cases external

private theorem still_of_layerReceive (message : LayerMessage) (rest : List LayerMessage) :
    Still engine (engine.layerReceive message rest) := by
  cases message <;> exact still_of_untouched rfl rfl rfl rfl rfl rfl rfl rfl

private theorem still_of_layerReply (request : GetJobs) (jobs : Option (List Job)) :
    Still engine (engine.layerReply request jobs) := by
  have still (fetching : Option GetJobs) (taken : List Job) (phase : Phase Job) (logged : Nat) :
      Still engine { engine with fetching, taken, phase, logged } :=
    still_of_untouched rfl rfl rfl rfl rfl rfl rfl rfl
  simp only [Engine.layerReply]
  split
  · exact still _ _ _ _
  · split
    · split <;> exact still _ _ _ _
    · exact still _ _ _ _

private theorem still_of_worker {index : Nat} {worker new : JobWorker Job}
    {extra : List (CoordinatorMessage Job)} (found : engine.workers[index]? = some worker)
    (coordinator : after.coordinator = engine.coordinator) (calls : after.saturated = engine.saturated)
    (workers : after.workers = engine.workers.set index new)
    (mailbox : after.mailbox = engine.mailbox ++ extra)
    (loud : extra.countP CoordinatorMessage.isSilent = 0)
    (quiet : Unstopped engine → .shutDownQueues ∉ worker.mailbox →
      .shutDownQueues ∉ new.mailbox ∧ .queueShutDown ∉ extra) : Still engine after := by
  refine ⟨?_, ?_, ?_, ?_, calls, ?_, fun unstopped => ?_⟩
  all_goals try rw [coordinator]
  · rw [Engine.silentSweeps, mailbox, List.countP_append, loud]
    rfl
  · obtain ⟨worker, replies⟩ := quiet unstopped (unstopped.workers _ (List.mem_of_getElem? found))
    exact unstopped.worked (by rw [coordinator]) workers mailbox worker replies

variable [OddJobWithMetadata Job] {action : Action Job}

private theorem course_of_receive (unstopped : Unstopped engine) {index : Nat}
    {message : CoordinatorMessage Job} (found : engine.mailbox[index]? = some message)
    (open_ : message.isStop = false) (now : Ticks) (hook : Outcome) :
    Course engine (.receive index now hook)
      ({ engine with mailbox := engine.mailbox.eraseIdx index }.receive message now hook) := by
  have unswept (kind : message.sweep? = none) (after : Engine Job) :
      engine.sweep (.receive index now hook) after = none := by
    simp [Engine.sweep, found, kind]
  cases message with
  | shutDownQueues requester => cases open_
  | queueShutDown => exact absurd (List.mem_of_getElem? found) unstopped.mailbox
  | jobSweep =>
    refine .swept index now hook _ false rfl found rfl ?_
    simp only [Engine.receive, unstopped.running, Bool.false_eq_true, ↓reduceIte]
  | silentRetrySweep =>
    refine .swept index now hook _ true rfl found rfl ?_
    simp only [Engine.receive, unstopped.running, Bool.false_eq_true, ↓reduceIte]
  | jobSuceeded request | jobFailed request =>
    exact .still (unswept rfl _) (still_of_receive found rfl rfl rfl rfl rfl rfl rfl rfl rfl)
  | custom =>
    exact .still (unswept rfl _) (still_of_receive found rfl rfl rfl rfl rfl rfl rfl rfl rfl)

/-- Until somebody takes a shutdown message, each step handles one sweep or none. -/
theorem course_of_step (unstopped : Unstopped engine) (open_ : engine.takesShutDown action = false)
    (taken : engine.step action = some after) : Course engine action after := by
  cases action with
  | receive index now hook =>
    simp only [Engine.step] at taken
    split at taken
    · rename_i message _ found
      cases taken
      simp only [Engine.takesShutDown, found, Option.any_some] at open_
      exact course_of_receive unstopped found open_ now hook
    · cases taken
  | post message =>
    refine .still rfl ?_
    simp only [Engine.step] at taken
    split at taken
    · rename_i external
      cases taken
      exact still_of_post external
    · cases taken
  | askTimeout hook | acknowledge | tellInProgress =>
    refine .still rfl ?_
    simp only [Engine.step] at taken
    split at taken
    · cases taken
      exact still_of_untouched rfl rfl rfl rfl rfl rfl rfl rfl
    · cases taken
  | next index hook =>
    refine .still rfl ?_
    simp only [Engine.step] at taken
    split at taken
    · cases taken
      exact still_of_untouched rfl rfl rfl rfl rfl rfl rfl rfl
    · split at taken
      · cases taken
        exact still_of_untouched rfl rfl rfl rfl rfl rfl rfl rfl
      · obtain ⟨worker, found, rfl⟩ := Option.map_eq_some_iff.mp taken
        refine still_of_worker found rfl rfl rfl (List.append_nil _).symm rfl fun _ quiet => ?_
        simpa using quiet
    · cases taken
  | layerReceive =>
    refine .still rfl ?_
    simp only [Engine.step] at taken
    split at taken
    · cases taken
      exact still_of_layerReceive _ _
    · cases taken
  | layerReply jobs =>
    obtain ⟨request, _, rfl⟩ := Option.map_eq_some_iff.mp taken
    exact .still rfl (still_of_layerReply request jobs)
  | workerReceive index =>
    refine .still rfl ?_
    simp only [Engine.step] at taken
    split at taken
    · rename_i worker found
      split at taken
      · rename_i message rest _ front
        cases taken
        cases message with
        | shutDownQueues =>
          have told : .shutDownQueues ∈ worker.mailbox := front ▸ List.mem_cons_self
          exact absurd told (unstopped.workers _ (List.mem_of_getElem? found))
        | executeJobRequest request =>
          refine still_of_worker found rfl rfl rfl (List.append_nil _).symm rfl fun _ quiet => ?_
          rw [front] at quiet
          simpa using quiet
      · cases taken
    · cases taken
  | workerFinish index outcome =>
    refine .still rfl ?_
    simp only [Engine.step] at taken
    split at taken
    · rename_i worker found
      obtain ⟨request, _, rfl⟩ := Option.map_eq_some_iff.mp taken
      refine still_of_worker found rfl rfl rfl rfl ?_ fun _ quiet => ?_
      · cases outcome <;> rfl
      · cases outcome <;> simpa using quiet
    · cases taken

end Actions

/-- What the coordinator counts, against the sweeps that it has handled. -/
structure CountsSweeps (engine : Engine Job) (sweeps : List Sweep) : Prop where
  life : engine.coordinator.queueLifeSaturationPulseCount = sweeps.countP Sweep.isPulse
  pulses : engine.coordinator.saturationPulseCount = pulsesInARow sweeps
  start : engine.coordinator.saturationStartTime = none ↔
    engine.coordinator.saturationPulseCount = 0
  /-- one call for each pulse and none for any other sweep -/
  calls : ∀ sweep ∈ sweeps, sweep.calls.length = sweep.isPulse.toNat
  /-- and no call that does not come from a sweep -/
  total : engine.saturated = sweeps.flatMap Sweep.calls
  waiting : engine.silentSweeps ≤ engine.coordinator.queueLifeSaturationPulseCount
  off : engine.coordinator.aggressiveSweep = false → engine.silentSweeps = 0

/-- The same where the counters are an `int` and a `long`, which wrap around. -/
structure TalliesSweeps (engine : Engine Job) (sweeps : List Sweep) : Prop where
  life : engine.coordinator.queueLifeSaturationPulseCount =
    wrapInt64 (sweeps.countP Sweep.isPulse)
  pulses : engine.coordinator.saturationPulseCount = wrapInt32 (pulsesInARow sweeps)
  start : engine.coordinator.saturationStartTime = none ↔ pulsesInARow sweeps = 0
  calls : ∀ sweep ∈ sweeps, sweep.calls.length = sweep.isPulse.toNat
  total : engine.saturated = sweeps.flatMap Sweep.calls
  waiting : engine.silentSweeps ≤ sweeps.countP Sweep.isPulse
  off : engine.coordinator.aggressiveSweep = false → engine.silentSweeps = 0

theorem TalliesSweeps.counts {engine : Engine Job} {sweeps : List Sweep}
    (tallies : TalliesSweeps engine sweeps) (row : pulsesInARow sweeps < 2 ^ 31)
    (all : sweeps.countP Sweep.isPulse < 2 ^ 63) : CountsSweeps engine sweeps := by
  have life := tallies.life.trans (wrapInt64_of_lt all)
  have pulses := tallies.pulses.trans (wrapInt32_of_lt row)
  refine ⟨life, pulses, ?_, tallies.calls, tallies.total, ?_, tallies.off⟩
  · rw [tallies.start, pulses, Int.natCast_eq_zero]
  · rw [life]
    exact Int.ofNat_le.mpr tallies.waiting

theorem pulsesInARow_snoc (sweeps : List Sweep) (sweep : Sweep) :
    pulsesInARow (sweeps ++ [sweep]) =
      if sweep.saturated then pulsesInARow sweeps + sweep.isPulse.toNat else 0 := by
  rw [pulsesInARow, List.reverse_append, List.reverse_singleton, List.singleton_append,
    List.takeWhile_cons]
  split
  · rw [List.countP_cons, pulsesInARow]
    cases sweep.isPulse <;> rfl
  · rfl

section Counts

variable {engine after : Engine Job} {sweeps : List Sweep}

theorem talliesSweeps_configured (queueName : String) (numWorkers : Nat) (aggressiveSweep : Bool) :
    TalliesSweeps (Engine.configured queueName numWorkers aggressiveSweep : Engine Job) [] where
  life := rfl
  pulses := rfl
  start := iff_of_true rfl rfl
  calls sweep member := by cases member
  total := rfl
  waiting := Nat.zero_le 0
  off _ := rfl

private theorem TalliesSweeps.still (tallies : TalliesSweeps engine sweeps)
    (still : Still engine after) : TalliesSweeps after sweeps where
  life := still.life.trans tallies.life
  pulses := still.pulses.trans tallies.pulses
  start := by rw [still.start, tallies.start]
  calls := tallies.calls
  total := still.calls.trans tallies.total
  waiting := by
    rw [still.silent]
    exact tallies.waiting
  off disabled := still.silent.trans (tallies.off (still.aggressive.symm.trans disabled))

private theorem TalliesSweeps.snoc (tallies : TalliesSweeps engine sweeps) {sweep : Sweep}
    (life : after.coordinator.queueLifeSaturationPulseCount =
      wrapInt64 (sweeps.countP Sweep.isPulse + sweep.isPulse.toNat))
    (pulses : after.coordinator.saturationPulseCount = wrapInt32 (pulsesInARow (sweeps ++ [sweep])))
    (start : after.coordinator.saturationStartTime = none ↔ pulsesInARow (sweeps ++ [sweep]) = 0)
    (calls : sweep.calls.length = sweep.isPulse.toNat)
    (total : after.saturated = engine.saturated ++ sweep.calls)
    (waiting : after.silentSweeps ≤ sweeps.countP Sweep.isPulse + sweep.isPulse.toNat)
    (off : after.coordinator.aggressiveSweep = false → after.silentSweeps = 0) :
    TalliesSweeps after (sweeps ++ [sweep]) := by
  have more : (sweeps ++ [sweep]).countP Sweep.isPulse =
      sweeps.countP Sweep.isPulse + sweep.isPulse.toNat := by
    rw [List.countP_append, List.countP_singleton]
    cases sweep.isPulse <;> rfl
  refine ⟨?_, pulses, start, ?_, ?_, ?_, off⟩
  · rw [life, more, Int.natCast_add]
  · intro other member
    rcases List.mem_append.mp member with older | newer
    · exact tallies.calls other older
    · rw [List.mem_singleton.mp newer]
      exact calls
  · rw [total, tallies.total, List.flatMap_append, List.flatMap_singleton]
  · rw [more]
    exact waiting

private theorem silent_of_sweep {message : CoordinatorMessage Job} {silent : Bool}
    (kind : message.sweep? = some silent) : message.isSilent = silent := by
  cases message <;> cases kind <;> rfl

private theorem TalliesSweeps.unsaturated (tallies : TalliesSweeps engine sweeps)
    {rest : List (CoordinatorMessage Job)} {silent : Bool} (now : Ticks) (hook : Outcome)
    (below : engine.isSaturated = false)
    (fewer : rest.countP CoordinatorMessage.isSilent ≤ engine.silentSweeps) :
    TalliesSweeps ({ engine with mailbox := rest }.handleSweep silent now hook)
      (sweeps ++ [⟨silent, false, []⟩]) := by
  have unsaturated : engine.coordinator.pendingItems < engine.coordinator.workerCount * 2 := by
    simpa [Engine.isSaturated] using below
  have again := pulsesInARow_snoc sweeps ⟨silent, false, []⟩
  rw [if_neg Bool.false_ne_true] at again
  simp only [Engine.handleSweep, unsaturated, ↓reduceIte]
  refine tallies.snoc ?_ ?_ ?_ rfl (List.append_nil _).symm ?_ fun disabled => ?_
  · exact tallies.life
  · rw [again]
    rfl
  · exact iff_of_true rfl again
  · exact Nat.le_trans fewer tallies.waiting
  · exact Nat.eq_zero_of_le_zero (tallies.off disabled ▸ fewer)

private theorem TalliesSweeps.silent (tallies : TalliesSweeps engine sweeps)
    {rest : List (CoordinatorMessage Job)} (now : Ticks) (hook : Outcome)
    (limit : engine.isSaturated = true)
    (fewer : rest.countP CoordinatorMessage.isSilent + 1 = engine.silentSweeps) :
    TalliesSweeps ({ engine with mailbox := rest }.handleSweep true now hook)
      (sweeps ++ [⟨true, true, []⟩]) := by
  have saturated : ¬ engine.coordinator.pendingItems < engine.coordinator.workerCount * 2 := by
    simpa [Engine.isSaturated] using limit
  have same : pulsesInARow (sweeps ++ [⟨true, true, []⟩]) = pulsesInARow sweeps :=
    pulsesInARow_snoc sweeps ⟨true, true, []⟩
  have waiting := tallies.waiting
  cases aggressive : engine.coordinator.aggressiveSweep with
  | false =>
    have none := tallies.off aggressive
    omega
  | true =>
    simp only [Engine.handleSweep, saturated, aggressive, ↓reduceIte]
    refine tallies.snoc tallies.life ?_ ?_ rfl (List.append_nil _).symm ?_ fun disabled => ?_
    · rw [same]
      exact tallies.pulses
    · rw [same]
      exact tallies.start
    · simp only [Engine.silentSweeps, List.countP_append, List.countP_singleton,
        CoordinatorMessage.isSilent, ↓reduceIte]
      omega
    · exact absurd (disabled.symm.trans aggressive) (by simp)

private theorem TalliesSweeps.pulse (tallies : TalliesSweeps engine sweeps)
    {rest : List (CoordinatorMessage Job)} (now : Ticks) (hook : Outcome)
    (limit : engine.isSaturated = true)
    (same : rest.countP CoordinatorMessage.isSilent = engine.silentSweeps) :
    ∃ call, ({ engine with mailbox := rest }.handleSweep false now hook).saturated =
        engine.saturated ++ [call] ∧
      TalliesSweeps ({ engine with mailbox := rest }.handleSweep false now hook)
        (sweeps ++ [⟨false, true, [call]⟩]) := by
  have saturated : ¬ engine.coordinator.pendingItems < engine.coordinator.workerCount * 2 := by
    simpa [Engine.isSaturated] using limit
  have more (call : Ticks × Int × Int) :
      pulsesInARow (sweeps ++ [⟨false, true, [call]⟩]) = pulsesInARow sweeps + 1 :=
    pulsesInARow_snoc sweeps ⟨false, true, [call]⟩
  have life : wrapInt64 (engine.coordinator.queueLifeSaturationPulseCount + 1) =
      wrapInt64 (sweeps.countP Sweep.isPulse + (1 : Nat)) := by
    rw [tallies.life, wrapInt64_add]
    rfl
  have pulses (call : Ticks × Int × Int) :
      wrapInt32 (engine.coordinator.saturationPulseCount + 1) =
        wrapInt32 (pulsesInARow (sweeps ++ [⟨false, true, [call]⟩])) := by
    rw [tallies.pulses, wrapInt32_add, more]
    rfl
  have waiting := tallies.waiting
  cases aggressive : engine.coordinator.aggressiveSweep with
  | false =>
    simp only [Engine.handleSweep, saturated, aggressive, Bool.false_eq_true, ↓reduceIte,
      Engine.guarded]
    refine ⟨_, rfl, tallies.snoc life (pulses _) (by simp [more]) rfl rfl ?_ fun _ => ?_⟩
    · simp only [Engine.silentSweeps, Sweep.isPulse, Bool.not_false, Bool.and_self, Bool.toNat_true]
      omega
    · exact same.trans (tallies.off aggressive)
  | true =>
    simp only [Engine.handleSweep, saturated, aggressive, Bool.false_eq_true, ↓reduceIte,
      Engine.guarded]
    refine ⟨_, rfl, tallies.snoc life (pulses _) (by simp [more]) rfl rfl ?_ fun disabled => ?_⟩
    · simp only [Engine.silentSweeps, List.countP_append, List.countP_singleton,
        CoordinatorMessage.isSilent, ↓reduceIte, Sweep.isPulse, Bool.not_false, Bool.and_self,
        Bool.toNat_true]
      omega
    · cases disabled

private theorem TalliesSweeps.swept (tallies : TalliesSweeps engine sweeps) {index : Nat}
    {message : CoordinatorMessage Job} {silent : Bool} (now : Ticks) (hook : Outcome)
    (running : engine.coordinator.shuttingDown = false)
    (found : engine.mailbox[index]? = some message) (kind : message.sweep? = some silent)
    (handled : after =
      { engine with mailbox := engine.mailbox.eraseIdx index }.handleSweep silent now hook) :
    TalliesSweeps after (sweeps ++ (engine.sweep (.receive index now hook) after).toList) := by
  have fewer := silent_erase found
  rw [silent_of_sweep kind] at fewer
  have event : (engine.sweep (.receive index now hook) after).toList =
      [⟨silent, engine.isSaturated, after.saturated.drop engine.saturated.length⟩] := by
    simp [Engine.sweep, running, found, kind]
  rw [event]
  cases limit : engine.isSaturated with
  | false =>
    have quiet : after.saturated = engine.saturated := by
      have unsaturated : engine.coordinator.pendingItems < engine.coordinator.workerCount * 2 := by
        simpa [Engine.isSaturated] using limit
      simp only [handled, Engine.handleSweep, unsaturated, ↓reduceIte]
    rw [quiet, List.drop_length, handled]
    exact tallies.unsaturated now hook limit (Nat.le.intro fewer)
  | true =>
    cases silent with
    | false =>
      obtain ⟨call, calls, counted⟩ := tallies.pulse now hook limit fewer
      rw [handled, calls, List.drop_left]
      exact counted
    | true =>
      have quiet : after.saturated = engine.saturated := by
        have saturated : ¬ engine.coordinator.pendingItems < engine.coordinator.workerCount * 2 := by
          simpa [Engine.isSaturated] using limit
        simp only [handled, Engine.handleSweep, saturated, ↓reduceIte]
        split <;> rfl
      rw [quiet, List.drop_length, handled]
      exact tallies.silent now hook limit fewer

end Counts

section Runs

private theorem unstopped_of_course {engine after : Engine Job} {action : Action Job}
    (unstopped : Unstopped engine) (course : Course engine action after) : Unstopped after := by
  cases course with
  | still unswept still => exact still.unstopped unstopped
  | swept index now hook message silent received found kind handled =>
    have rest : (engine.mailbox.eraseIdx index).Sublist engine.mailbox := List.eraseIdx_sublist _ _
    subst handled
    simp only [Engine.handleSweep]
    split
    · exact unstopped.transfer rfl rfl rest
    · have kept : Unstopped { engine with mailbox := engine.mailbox.eraseIdx index } :=
        unstopped.transfer rfl rfl rest
      split
      · refine ⟨?_, ?_, ?_⟩
        · split <;> exact unstopped.running
        · split <;> exact unstopped.workers
        · rw [List.mem_append]
          rintro (older | newer)
          · apply kept.mailbox
            split at older <;> exact older
          · cases List.mem_singleton.mp newer
      · split
        · exact kept
        · exact kept.transfer rfl rfl (List.Sublist.refl _)

variable [OddJobWithMetadata Job] {queueName : String} {numWorkers : Nat} {aggressiveSweep : Bool}
  {engine : Engine Job} {sweeps : List Sweep}

private theorem talliesSweeps_of_reaches
    (reached : Reaches (observed Engine.step Engine.sweep)
      (fun record action => record.1.takesShutDown action = false)
      (Engine.configured queueName numWorkers aggressiveSweep, []) (engine, sweeps)) :
    TalliesSweeps engine sweeps := by
  suffices both : Unstopped engine ∧ TalliesSweeps engine sweeps from both.2
  refine @Reaches.invariant _ _ _ _ _ _
    (fun record => Unstopped record.1 ∧ TalliesSweeps record.1 record.2) reached ?_ ?_
  · refine ⟨⟨rfl, ?_, ?_⟩, talliesSweeps_configured queueName numWorkers aggressiveSweep⟩
    · intro worker member
      obtain ⟨_, rfl⟩ := List.mem_replicate.mp member
      simp
    · simp [Engine.configured]
  · rintro ⟨before, handled⟩ action ⟨after, later⟩ ⟨unstopped, tallies⟩ open_ taken
    obtain ⟨stepped, seen⟩ := observed_eq_some_iff.mp taken
    have course := course_of_step unstopped open_ stepped
    refine ⟨unstopped_of_course unstopped course, ?_⟩
    simp only at seen
    rw [seen]
    cases course with
    | still unswept still =>
      rw [unswept, Option.toList_none, List.append_nil]
      exact tallies.still still
    | swept index now hook message silent received found kind handled =>
      subst received
      exact tallies.swept now hook unstopped.running found kind handled

/-- In every run up to the first shutdown message that the coordinator takes, its counters
are those of the sweeps it has handled, as long as these fit into an `int` and a `long`. -/
theorem Engine.saturation_counted
    (reached : Reaches (observed Engine.step Engine.sweep)
      (fun record action => record.1.takesShutDown action = false)
      (Engine.configured queueName numWorkers aggressiveSweep, []) (engine, sweeps)) :
    TalliesSweeps engine sweeps ∧
      (pulsesInARow sweeps < 2 ^ 31 → sweeps.countP Sweep.isPulse < 2 ^ 63 →
        CountsSweeps engine sweeps) := by
  have tallies := talliesSweeps_of_reaches reached
  exact ⟨tallies, tallies.counts⟩

end Runs

/-- One worker gets two jobs. The next sweep is a pulse, and its silent sweep comes round. -/
def saturatedRun : List (Action (SqlDbOddJob Unit Unit)) :=
  [.post .jobSweep, .receive 0 0 .returned, .layerReceive,
    .layerReply (some [sampleJob, sampleJob]), .next 0 .returned, .tellInProgress,
    .next 0 .returned, .tellInProgress, .next 0 .returned, .post .jobSweep,
    .receive 0 30 .threw, .receive 0 31 .returned]

theorem Engine.saturation_counted_of_two_jobs : ∃ engine sweeps,
    execute (fun record action => !record.1.takesShutDown action) (observed Engine.step Engine.sweep)
      (Engine.configured "default" 1 true, []) saturatedRun = some (engine, sweeps) ∧
    sweeps.map Sweep.isPulse = [false, true, false] ∧ engine.silentSweeps = 1 ∧
    CountsSweeps engine sweeps := by
  have run : execute (fun record action => !record.1.takesShutDown action)
      (observed Engine.step Engine.sweep) (Engine.configured "default" 1 true, []) saturatedRun =
        some _ := rfl
  refine ⟨_, _, run, by decide, by decide, ?_⟩
  exact (Engine.saturation_counted
    (reaches_of_execute (fun _ _ open_ => by simpa using open_) run)).2 (by decide) (by decide)

section Overflow

variable [OddJobWithMetadata Job] {start : Engine Job × List Sweep} {engine : Engine Job}
  {sweeps : List Sweep}

/-- The coordinator waits for messages with its workers busy. -/
private structure Busy (engine : Engine Job) : Prop where
  idle : engine.phase = .idle
  mailbox : engine.mailbox = []
  running : engine.coordinator.shuttingDown = false
  calm : engine.coordinator.aggressiveSweep = false
  limit : engine.isSaturated = true

private theorem Busy.pulse (busy : Busy engine)
    (reached : Reaches (observed Engine.step Engine.sweep)
      (fun record action => record.1.takesShutDown action = false) start (engine, sweeps)) :
    ∃ after call, Busy after ∧ Reaches (observed Engine.step Engine.sweep)
      (fun record action => record.1.takesShutDown action = false) start
      (after, sweeps ++ [⟨false, true, [call]⟩]) := by
  have saturated : ¬ engine.coordinator.pendingItems < engine.coordinator.workerCount * 2 := by
    simpa [Engine.isSaturated] using busy.limit
  let posted := { engine with mailbox := [.jobSweep] }
  let after := { engine with mailbox := [] }.handleSweep false 0 .returned
  have first : observed Engine.step Engine.sweep (engine, sweeps) (.post .jobSweep) =
      some (posted, sweeps) := by
    simp [observed, Engine.step, CoordinatorMessage.external, Engine.sweep, busy.mailbox, posted]
  obtain ⟨call, calls⟩ : ∃ call, after.saturated = engine.saturated ++ [call] := by
    simp only [after, Engine.handleSweep, saturated, busy.calm, Bool.false_eq_true, ↓reduceIte,
      Engine.guarded]
    exact ⟨_, rfl⟩
  have second : observed Engine.step Engine.sweep (posted, sweeps) (.receive 0 0 .returned) =
      some (after, sweeps ++ [⟨false, true, [call]⟩]) := by
    have idle : posted.phase = .idle := busy.idle
    have handled : posted.step (.receive 0 0 .returned) = some after := by
      simp only [Engine.step, idle]
      simp [posted, after, Engine.receive, busy.running, busy.idle]
    refine observed_eq_some_iff.mpr ⟨handled, ?_⟩
    have same : posted.isSaturated = true := busy.limit
    simp [Engine.sweep, posted, busy.running, CoordinatorMessage.sweep?, same, calls]
  have calm := busy.calm
  refine ⟨after, call, ?_, .next (.next reached rfl first) rfl second⟩
  simp only [after, Engine.handleSweep, saturated, calm, Bool.false_eq_true, ↓reduceIte,
    Engine.guarded]
  exact ⟨busy.idle, rfl, busy.running, rfl, busy.limit⟩

private theorem Busy.pulses (busy : Busy engine)
    (reached : Reaches (observed Engine.step Engine.sweep)
      (fun record action => record.1.takesShutDown action = false) start (engine, sweeps))
    (more : Nat) : ∃ after later, Busy after ∧ pulsesInARow later = pulsesInARow sweeps + more ∧
      Reaches (observed Engine.step Engine.sweep)
        (fun record action => record.1.takesShutDown action = false) start (after, later) := by
  induction more with
  | zero => exact ⟨engine, sweeps, busy, rfl, reached⟩
  | succ more ih =>
    obtain ⟨before, earlier, still, row, reached⟩ := ih
    obtain ⟨after, call, busy, next⟩ := still.pulse reached
    refine ⟨after, _, busy, ?_, next⟩
    have one := pulsesInARow_snoc earlier ⟨false, true, [call]⟩
    rw [row] at one
    exact one

end Overflow

def busyRun : List (Action (SqlDbOddJob Unit Unit)) := saturatedRun.take 9

/-- After 2^31 pulses in a row the `int` is negative. -/
theorem Engine.saturation_overflows :
    ∃ (engine : Engine (SqlDbOddJob Unit Unit)) (sweeps : List Sweep),
      Reaches (observed Engine.step Engine.sweep)
        (fun record action => record.1.takesShutDown action = false)
        (Engine.configured "default" 1 false, []) (engine, sweeps) ∧
      pulsesInARow sweeps = 2 ^ 31 ∧
      engine.coordinator.saturationPulseCount = -2 ^ 31 ∧
      ¬ CountsSweeps engine sweeps := by
  have run : execute (fun record action => !record.1.takesShutDown action)
      (observed Engine.step Engine.sweep) (Engine.configured "default" 1 false, []) busyRun =
        some _ := rfl
  obtain ⟨engine, sweeps, -, row, reached⟩ := @Busy.pulses _ _ _ _ [⟨false, false, []⟩]
    ⟨rfl, rfl, rfl, rfl, rfl⟩
    (reaches_of_execute (fun _ _ open_ => by simpa using open_) run) (2 ^ 31)
  have wrapped := (talliesSweeps_of_reaches reached).pulses
  rw [row] at wrapped
  refine ⟨engine, sweeps, reached, row, wrapped, fun counts => ?_⟩
  have counted := wrapped.symm.trans counts.pulses
  rw [row] at counted
  revert counted
  decide

end OddJob.Akka
