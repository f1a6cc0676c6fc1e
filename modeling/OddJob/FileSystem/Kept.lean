import OddJob.Akka.Awaited
import OddJob.FileSystem.Custody
import OddJob.FileSystem.Refinement

/-! Runs in which no process crashes, no statement throws and no coordinator gives up waiting for
a batch. In them every fetched job is in the hands of some process until it is marked for the
last time. -/

namespace OddJob.FileSystem.Engines

open Akka Transition

variable {CliType Value : Type} {engines after : Engines CliType Value}
  {action : EnginesAction CliType Value} {index : Nat} {process changed : Process CliType Value}

/-- No process crashes, no fetch and no mark throws before it comes as far as the file, and no
`Ask` for jobs times out. -/
def Orderly (_ : Engines CliType Value) : EnginesAction CliType Value → Prop
  | .crash _ | .fetchThrew _ | .command _ _ false | .act _ (.askTimeout _) => False
  | _ => True

instance (engines : Engines CliType Value) : DecidablePred engines.Orderly := fun action => by
  unfold Orderly
  split <;> infer_instance

/-- The job waits, or is settled, or is in somebody's hands. -/
def Accounted (engines : Engines CliType Value) (e : Entry) : Prop :=
  e.Waits ∨ e.status.terminal = true ∨
    Busy e ∧ e.jobId ∈ engines.hands.map FileSystemJobMetaData.jobId

structure Kept (engines : Engines CliType Value) : Prop where
  runs : ∀ process ∈ engines.processes, process.crashed = false
  awaits : ∀ process ∈ engines.processes, process.engine.Awaits
  parameters : ∀ e ∈ engines.entries, e.retryParameters.isSome = true
  accounted : ∀ e ∈ engines.entries, engines.Accounted e

private theorem hands_kept {jobId : Guid} (found : engines.processes[index]? = some process)
    (kept : jobId ∈ process.hands.map FileSystemJobMetaData.jobId →
      jobId ∈ changed.hands.map FileSystemJobMetaData.jobId)
    (held : jobId ∈ engines.hands.map FileSystemJobMetaData.jobId) :
    jobId ∈ (engines.update index changed).hands.map FileSystemJobMetaData.jobId := by
  obtain ⟨inside, same⟩ := List.getElem?_eq_some_iff.mp found
  rw [hands, List.map_flatMap, List.mem_flatMap] at held ⊢
  obtain ⟨holder, member, listed⟩ := held
  obtain ⟨place, there⟩ := List.mem_iff_getElem?.mp member
  by_cases own : place = index
  · subst own
    obtain rfl : holder = process := Option.some.inj (there.symm.trans found)
    exact ⟨changed, List.mem_of_getElem? (List.getElem?_set_self inside), kept listed⟩
  · exact ⟨holder, List.mem_of_getElem? ((List.getElem?_set_ne (Ne.symm own)).trans there), listed⟩

private theorem forall_update {holds : Process CliType Value → Prop}
    (before : ∀ other ∈ engines.processes, holds other) (own : holds changed) :
    ∀ other ∈ (engines.update index changed).processes, holds other := by
  intro other member
  rcases List.mem_or_eq_of_mem_set member with older | rfl
  · exact before other older
  · exact own

namespace Kept

private theorem quiet (valid : Kept engines)
    (found : engines.processes[index]? = some process) (alive : changed.crashed = false)
    (patient : changed.engine.Awaits) (kept : process.hands ⊆ changed.hands) :
    Kept (engines.update index changed) where
  runs := forall_update valid.runs alive
  awaits := forall_update valid.awaits patient
  parameters := valid.parameters
  accounted e member := by
    rcases valid.accounted e member with waits | settled | ⟨busy, held⟩
    · exact .inl waits
    · exact .inr (.inl settled)
    · exact .inr (.inr ⟨busy, hands_kept found (List.map_subset _ kept ·) held⟩)

private theorem fetched (valid : Kept engines) (custody : Custody engines) {request : GetJobs}
    {now queueTime : Nat → Ticks} {serializer results : List (FileSystemJobMetaData CliType Value)}
    (found : engines.processes[index]? = some process) (free : process.results = none)
    (done : FileSystem.getJobs [request.queueName] request.fetchSize now queueTime
      engines.serializer = .ok (serializer, results)) :
    Kept ({ engines with serializer }.update index { process with results := some results }) := by
  have gained : ({ process with results := some results } : Process CliType Value).hands =
      results ++ process.hands := by
    rw [Process.hands, Process.hands, free]
    rfl
  have kept : process.hands ⊆
      ({ process with results := some results } : Process CliType Value).hands :=
    gained ▸ List.subset_append_right _ _
  have member := List.mem_of_getElem? found
  refine ⟨forall_update valid.runs (valid.runs process member),
    forall_update valid.awaits (valid.awaits process member), fun later member => ?_,
    fun later member => ?_⟩
  all_goals
    rw [Engines.entries, update, custody.entries_fetched done] at member
    obtain ⟨e, present, rfl⟩ := List.mem_map.mp member
  · split <;> exact valid.parameters e present
  · split
    · rename_i listed
      refine .inr (.inr ⟨.inl rfl, ?_⟩)
      rw [hands, List.map_flatMap, List.mem_flatMap]
      obtain ⟨inside, _⟩ := List.getElem?_eq_some_iff.mp found
      refine ⟨_, List.mem_of_getElem? (List.getElem?_set_self inside), ?_⟩
      rw [gained, List.map_append]
      exact List.mem_append_left _ listed
    · rcases valid.accounted e present with waits | settled | ⟨busy, held⟩
      · exact .inl waits
      · exact .inr (.inl settled)
      · exact .inr (.inr ⟨busy, hands_kept found (List.map_subset _ kept ·) held⟩)

private theorem hands_marked {command : Command} {rest : List LayerMessage}
    {engine : Engine (FileSystemJobMetaData CliType Value)}
    {job : FileSystemJobMetaData CliType Value}
    (front : process.engine.layer = .command command :: rest)
    (taken : process.engine.step .layerReceive = some engine)
    (listed : (job, command.ticket) ∈ process.engine.held) (id : command.jobId = job.jobId)
    {jobId : Guid} (other : jobId ≠ command.jobId)
    (held : jobId ∈ process.hands.map FileSystemJobMetaData.jobId) :
    jobId ∈ ({ process with engine } : Process CliType Value).hands.map
      FileSystemJobMetaData.jobId := by
  have same := processed_of_front front taken
  obtain ⟨copy, member, rfl⟩ := List.mem_map.mp held
  refine List.mem_map_of_mem ?_
  rcases List.mem_append.mp member with fetched | holds
  · exact List.mem_append_left _ fetched
  · obtain ⟨entry, inside, rfl⟩ := List.mem_map.mp holds
    refine List.mem_append_right _ (List.mem_map_of_mem ?_)
    refine held_of_other (by rw [same]) (by rw [same]) inside fun ticket => other ?_
    have known := (Engine.mem_held.mp (show (entry.1, entry.2) ∈ process.engine.held from inside)).1
    rw [ticket, (Engine.mem_held.mp listed).1] at known
    rw [id, Option.some.inj known]

private theorem marked (valid : Kept engines) (custody : Custody engines) {command : Command}
    {rest : List LayerMessage} {engine : Engine (FileSystemJobMetaData CliType Value)}
    {now : Ticks} {serializer : List (FileSystemJobMetaData CliType Value)}
    (found : engines.processes[index]? = some process)
    (front : process.engine.layer = .command command :: rest)
    (taken : process.engine.step .layerReceive = some engine)
    (done : writeJobState command.jobId (transformFunc command.mark now) engines.serializer =
      .ok serializer) :
    Kept ({ engines with serializer }.update index { process with engine }) := by
  obtain ⟨_, told, inOrder, _⟩ := custody.tracked found
  obtain ⟨job, listed, id, _⟩ := held_of_front told inOrder front
  have member := List.mem_of_getElem? found
  have patient := (valid.awaits process member).step taken (by simp)
  refine ⟨forall_update valid.runs (valid.runs process member),
    forall_update valid.awaits patient, fun later member => ?_, fun later member => ?_⟩
  all_goals
    rw [Engines.entries, update, custody.entries_marked done] at member
    obtain ⟨e, present, rfl⟩ := List.mem_map.mp member
  · split
    · cases command.mark with
      | markJobInRetryAndIncrement lastAttempt =>
        exact Option.isSome_map.trans (valid.parameters e present)
      | _ => exact valid.parameters e present
    · exact valid.parameters e present
  · split
    · rename_i spoken
      cases mark : command.mark with
      | markJobInProgress =>
        refine .inr (.inr ⟨.inr rfl, ?_⟩)
        rw [hands, List.map_flatMap, List.mem_flatMap]
        obtain ⟨inside, _⟩ := List.getElem?_eq_some_iff.mp found
        refine ⟨_, List.mem_of_getElem? (List.getElem?_set_self inside), ?_⟩
        refine List.mem_map.mpr ⟨job, List.mem_append_right _ ?_, id.symm.trans spoken.symm⟩
        rw [held_of_inProgress front taken mark]
        exact List.mem_map_of_mem listed
      | markJobInRetryAndIncrement lastAttempt => exact .inl (.inr rfl)
      | markJobFailed | markJobSuccess => exact .inr (.inl rfl)
    · rename_i unlike
      rcases valid.accounted e present with waits | settled | ⟨busy, held⟩
      · exact .inl waits
      · exact .inr (.inl settled)
      · exact .inr (.inr ⟨busy, hands_kept found (hands_marked front taken listed id unlike) held⟩)

theorem moves (valid : Kept engines) (custody : Custody engines)
    (orderly : engines.Orderly action) (move : Moves engines action after) : Kept after := by
  cases move with
  | added _ data parameters fresh new given =>
    refine ⟨valid.runs, valid.awaits, fun e member => ?_, fun e member => ?_⟩
    all_goals
      rw [entries, List.map_append] at member
      rcases List.mem_append.mp member with older | newer
    · exact valid.parameters e older
    · obtain rfl := List.mem_singleton.mp newer
      rw [FileSystemJobMetaData.entry, given]
      rfl
    · exact valid.accounted e older
    · obtain rfl := List.mem_singleton.mp newer
      exact .inl (.inl new)
  | crashed => exact orderly.elim
  | acted index process action engine running inside stepped =>
    obtain ⟨found, _⟩ := process_of_running running
    obtain ⟨_, same⟩ := held_of_step (custody.tracked found).1 stepped inside
    have member := List.mem_of_getElem? found
    refine valid.quiet found (valid.runs process member)
      ((valid.awaits process member).step stepped fun hook waited => ?_) ?_
    · subst waited
      exact orderly
    · rw [Process.hands, Process.hands, same]
      exact List.Subset.refl _
  | fetched index process request now queueTime serializer results running free done =>
    exact valid.fetched custody (process_of_running running).1 free done
  | replied index process results engine running returned stepped =>
    obtain ⟨found, _⟩ := process_of_running running
    obtain ⟨_, told, inOrder, _⟩ := custody.tracked found
    have member := List.mem_of_getElem? found
    have waits := valid.awaits process member
    refine valid.quiet found (valid.runs process member) (waits.step stepped (by simp)) ?_
    rw [Process.hands, Process.hands, returned, held_of_delivered told inOrder waits stepped,
      List.map_append, List.zipIdx_map_fst]
    exact fun copy member => (List.mem_append.mp member).elim
      (List.mem_append_right _ <| List.mem_append_right _ ·)
      (List.mem_append_right _ <| List.mem_append_left _ ·)
  | threw => exact orderly.elim
  | marked index process command rest engine now serializer running front stepped done =>
    exact valid.marked custody (process_of_running running).1 front stepped done
  | lost index process command rest engine now reaches running front stepped failed =>
    cases reaches with
    | false => exact orderly.elim
    | true =>
      obtain ⟨thrown, failed⟩ := failed rfl
      have done := @Stores.Mirrored.writeJobState_total _ _ command.jobId command.mark now
        engines.serializer fun q member => valid.parameters q.entry (List.mem_map_of_mem member)
      rw [failed] at done
      obtain ⟨_, ⟨⟩⟩ := done

end Kept

theorem kept_of_reaches {settings : List ProcessSettings}
    (reached : Reaches step Orderly (configured settings) engines) : Kept engines := by
  induction reached with
  | refl =>
    refine ⟨fun process member => ?_, fun process member => ?_, nofun, nofun⟩
    all_goals obtain ⟨_, _, rfl⟩ := List.mem_map.mp member
    · rfl
    · exact .inl rfl
  | next earlier orderly taken ih =>
    exact ih.moves (custody_of_reaches earlier) orderly (moves_of_step taken)

end OddJob.FileSystem.Engines
