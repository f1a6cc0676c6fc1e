import OddJob.Cluster.Eligible

/-! Where the status and the retry count of a row come from. Whatever the delays, the crashes
and the statements that throw, a row says of its job what some process did to it. -/

namespace OddJob

open Akka Sql Linq Transition

/-- The status a command writes. -/
def Mark.status : Mark → JobStates
  | .markJobInProgress => .inProgress
  | .markJobFailed => .failed
  | .markJobSuccess => .processed
  | .markJobInRetryAndIncrement _ => .retry

@[simp] theorem Mark.set_status (mark : Mark) (now : Ticks) (q : SqlCommonDbOddJobMetaData) :
    (mark.set now q).status = mark.status := by
  cases mark <;> rfl

def Mark.increments : Mark → Bool
  | .markJobInRetryAndIncrement _ => true
  | _ => false

theorem Mark.set_retryCount (mark : Mark) (now : Ticks) (q : SqlCommonDbOddJobMetaData) :
    (mark.set now q).retryCount = q.retryCount + if mark.increments then 1 else 0 := by
  cases mark <;> simp [set, increments]

namespace Akka

variable {Job : Type} [OddJobWithMetadata Job] {engine : Engine Job} {ticket : Nat} {job : Job}

/-- What the engine has done with a fetched job, if the job has this status because of it. -/
def Engine.Explains (engine : Engine Job) (ticket : Nat) (job : Job) : JobStates → Prop
  | .inProgress => ⟨job, ticket⟩ ∈ engine.requests
  | .processed => engine.endingsFor ticket = [.returned]
  | .failed => OddJobWithMetadata.typeMissing job = true ∧ engine.endingsFor ticket = [] ∨
      engine.endingsFor ticket = [.threw] ∧ Engine.exhausted job = true
  | .retry => engine.endingsFor ticket = [.threw] ∧ Engine.exhausted job = false
  | .new | .inserting | .other _ => False

private theorem explains_terminal {outcome : Outcome} {now : Ticks}
    (endings : engine.endingsFor ticket = [outcome]) :
    engine.Explains ticket job (Engine.terminalMark job outcome now).status := by
  cases outcome with
  | returned => exact endings
  | threw =>
    cases spent : Engine.exhausted job with
    | true =>
      simp only [Engine.terminalMark, spent, ↓reduceIte]
      exact .inr ⟨endings, spent⟩
    | false =>
      simp only [Engine.terminalMark, spent, Bool.false_eq_true, ↓reduceIte]
      exact ⟨endings, spent⟩

theorem Told.explains (told : Told engine) (tracked : Tracked engine) {command : Command}
    (sent : command ∈ engine.commands) :
    ∃ job, engine.taken[command.ticket]? = some job ∧
      command.jobId = OddJobWithMetadata.jobId job ∧
      engine.Explains command.ticket job command.mark.status := by
  obtain ⟨job, taken, _, listed⟩ := told.command_stage sent
  refine ⟨job, taken, ?_⟩
  have requests := told.requests _ _ taken
  have endings := told.endings command.ticket
  have requested (dispatched : (engine.stage command.ticket).requests job command.ticket =
      [⟨job, command.ticket⟩]) : ⟨job, command.ticket⟩ ∈ engine.requests := by
    rw [dispatched] at requests
    exact (List.mem_filter.mp (requests ▸ List.mem_singleton_self _)).1
  generalize stage : engine.stage command.ticket = current at listed endings
  rw [stage] at requested
  cases current with
  | fetched => cases listed
  | missing =>
    have suits := tracked.suits _ _ taken
    obtain ⟨mark, id, _⟩ := Command.mk.injEq .. ▸ List.mem_singleton.mp listed
    rw [Stage.Suits, stage] at suits
    split at suits
    · rename_i missing
      exact ⟨id, mark ▸ .inl ⟨missing, endings⟩⟩
    · exact absurd rfl suits
  | waiting | executing | executed =>
    obtain ⟨mark, id, _⟩ := Command.mk.injEq .. ▸ List.mem_singleton.mp listed
    exact ⟨id, mark ▸ requested rfl⟩
  | handled outcome now =>
    rcases List.mem_pair.mp listed with started | settled
    · obtain ⟨mark, id, _⟩ := Command.mk.injEq .. ▸ started
      exact ⟨id, mark ▸ requested rfl⟩
    · obtain ⟨mark, id, _⟩ := Command.mk.injEq .. ▸ settled
      exact ⟨id, mark ▸ explains_terminal endings⟩

theorem Told.increments_nodup (told : Told engine) :
    ((engine.commands.filter fun command => command.mark.increments).map Command.ticket).Nodup := by
  rw [List.nodup_iff_count]
  intro ticket
  have counted : ((engine.commands.filter fun command => command.mark.increments).map
      Command.ticket).count ticket =
        (engine.commandsFor ticket).countP fun command => command.mark.increments := by
    rw [Engine.commandsFor, List.count, List.countP_map, List.countP_filter, List.countP_filter]
    refine List.countP_congr fun command _ => ?_
    simp [and_comm]
  rw [counted]
  cases taken : engine.taken[ticket]? with
  | none => simp [(told.untaken ticket (List.getElem?_eq_none_iff.mp taken)).1]
  | some job =>
    rw [told.commands ticket job taken]
    split
    · simp
    · cases engine.stage ticket with
      | handled outcome now =>
        simp only [Stage.commands, List.countP_cons, List.countP_nil]
        split <;> simp [Mark.increments]
      | _ => simp [Stage.commands, Mark.increments]

end Akka

variable {Key CliType Value : Type}

namespace Node

/-- The executions of the job in this process that threw. -/
def throwsOf (node : Node CliType Value) (jobId : Guid) : List (Nat × Outcome) :=
  node.engine.ended.filter fun entry => entry.2 = .threw ∧
    (node.engine.taken[entry.1]?).any (fun fetched => fetched.job.jobId = jobId) = true

/-- The increments of the job that this process has had carried out. -/
def incrementsOf (node : Node CliType Value) (jobId : Guid) : List (Command × Ticks) :=
  node.applied.filter fun entry => entry.1.mark.increments = true ∧ entry.1.jobId = jobId

variable {fetchedIds : List Guid} {locks : List (Guid × Nat)} {index : Nat}
  {node : Node CliType Value} {jobId : Guid}

/-- What was carried out was processed, in that order. -/
def AppliedInOrder (node : Node CliType Value) : Prop :=
  (node.applied.map Prod.fst).Sublist node.engine.processed

private theorem Sound.threw_of_increment (valid : node.Sound fetchedIds locks index)
    {entry : Command × Ticks} (member : entry ∈ node.incrementsOf jobId) :
    entry.1.ticket ∈ (node.throwsOf jobId).map Prod.fst := by
  obtain ⟨applied, chosen⟩ := List.mem_filter.mp member
  obtain ⟨increments, own⟩ := of_decide_eq_true chosen
  have sent : entry.1 ∈ node.engine.commands := by
    rw [valid.inOrder]
    exact List.mem_append_left _ (valid.applied entry applied)
  obtain ⟨fetched, taken, same, explained⟩ := valid.told.explains valid.tracked sent
  have threw : node.engine.endingsFor entry.1.ticket = [.threw] := by
    cases mark : entry.1.mark with
    | markJobInRetryAndIncrement lastAttempt =>
      rw [mark] at explained
      exact explained.1
    | _ =>
      rw [mark] at increments
      cases increments
  obtain ⟨ended, listed, outcome⟩ := List.mem_map.mp (threw ▸ List.mem_singleton_self Outcome.threw)
  obtain ⟨present, ticket⟩ := List.mem_filter.mp listed
  obtain ticket := of_decide_eq_true ticket
  refine List.mem_map.mpr ⟨ended, List.mem_filter.mpr ⟨present, ?_⟩, ticket⟩
  have owned : fetched.job.jobId = jobId := same.symm.trans own
  simp [ticket, taken, outcome, owned]

/-- Every increment has an execution of its own that threw. -/
theorem Sound.increments_le_throws (valid : node.Sound fetchedIds locks index)
    (ordered : node.AppliedInOrder) :
    (node.incrementsOf jobId).length ≤ (node.throwsOf jobId).length := by
  have sublist : (((node.incrementsOf jobId).map Prod.fst).map Command.ticket).Sublist
      ((node.engine.commands.filter fun command => command.mark.increments).map
        Command.ticket) := by
    refine List.Sublist.map _ (List.Sublist.trans ?_ ((ordered.trans ?_).filter _))
    · rw [incrementsOf, List.filter_map]
      refine List.Sublist.map _ (List.monotone_filter_right _ ?_)
      intro entry chosen
      exact (of_decide_eq_true chosen).1
    · rw [valid.inOrder]
      exact List.sublist_append_left _ _
  have distinct := valid.told.increments_nodup.sublist sublist
  have included : ((node.incrementsOf jobId).map Prod.fst).map Command.ticket ⊆
      (node.throwsOf jobId).map Prod.fst := by
    intro ticket listed
    rw [List.map_map] at listed
    obtain ⟨entry, member, rfl⟩ := List.mem_map.mp listed
    exact valid.threw_of_increment member
  simpa using (List.subperm_of_subset distinct included).length_le

end Node

namespace Cluster

/-- The commands that were carried out, of all processes. -/
def applied (cluster : Cluster CliType Value) : List (Command × Ticks) :=
  cluster.nodes.flatMap Node.applied

def throwsOf (cluster : Cluster CliType Value) (jobId : Guid) : List (Nat × Outcome) :=
  cluster.nodes.flatMap fun node => node.throwsOf jobId

def incrementsOf (cluster : Cluster CliType Value) (jobId : Guid) : List (Command × Ticks) :=
  cluster.applied.filter fun entry => entry.1.mark.increments = true ∧ entry.1.jobId = jobId

/-- The row has the status it was given last. -/
def Status (cluster : Cluster CliType Value) (row : SqlCommonDbOddJobMetaData) : Prop :=
  row.status = .inserting ∨ row.status = .new ∨
    ∃ entry ∈ cluster.applied, entry.1.jobId = row.jobGuid ∧ row.status = entry.1.mark.status

/-- Rows say what commands have told them to, and how often. -/
structure Reported (cluster : Cluster CliType Value) : Prop where
  ordered : ∀ node ∈ cluster.nodes, node.AppliedInOrder
  status : ∀ row ∈ cluster.store.tables.queue, cluster.Status row
  retryCount : ∀ row ∈ cluster.store.tables.queue,
    row.retryCount = ((cluster.incrementsOf row.jobGuid).length : Int)

variable {configuration : Configuration Key} {cluster after : Cluster CliType Value}
  {action : ClusterAction CliType Value} {index : Nat} {node changed : Node CliType Value}
  {row : SqlCommonDbOddJobMetaData}

namespace Reported

private theorem kept (valid : Reported cluster) (nodes : after.nodes = cluster.nodes)
    (rows : ∀ row ∈ after.store.tables.queue, ∃ old ∈ cluster.store.tables.queue,
      row.jobGuid = old.jobGuid ∧ row.retryCount = old.retryCount ∧
        (row.status = .new ∨ row.status = old.status)) : Reported after := by
  have applied : after.applied = cluster.applied := congrArg (List.flatMap Node.applied) nodes
  refine ⟨nodes ▸ valid.ordered, fun row member => ?_, fun row member => ?_⟩
  · obtain ⟨old, present, guid, _, published | same⟩ := rows row member
    · exact .inr (.inl published)
    · rw [Status, same, applied, guid]
      exact valid.status old present
  · obtain ⟨old, present, guid, count, _⟩ := rows row member
    rw [count, guid, incrementsOf, applied]
    exact valid.retryCount old present

private theorem quiet (valid : Reported cluster) (found : cluster.nodes[index]? = some node)
    (same : changed.applied = node.applied)
    (processed : node.engine.processed <+: changed.engine.processed) :
    Reported (cluster.update index changed) := by
  have applied : (cluster.update index changed).applied = cluster.applied :=
    flatMap_set_same Node.applied found same
  refine ⟨fun other member => ?_, fun row member => ?_, fun row member => ?_⟩
  · rcases List.mem_or_eq_of_mem_set member with older | rfl
    · exact valid.ordered other older
    · rw [Node.AppliedInOrder, same]
      exact (valid.ordered node (List.mem_of_getElem? found)).trans processed.sublist
  · rw [Status, applied]
    exact valid.status row member
  · rw [incrementsOf, applied]
    exact valid.retryCount row member

private theorem unapplied (sound : Sound cluster) {jobId : Guid}
    (fresh : cluster.store.knows jobId = false) : ∀ entry ∈ cluster.applied,
      entry.1.jobId ≠ jobId := by
  intro entry member same
  obtain ⟨node, listed, carried⟩ := List.mem_flatMap.mp member
  obtain ⟨index, found⟩ := List.mem_iff_getElem?.mp listed
  have here := sound.node index node found
  have sent : entry.1 ∈ node.engine.commands := by
    rw [here.inOrder]
    exact List.mem_append_left _ (here.applied entry carried)
  obtain ⟨fetched, taken, id, _⟩ := here.told.explains here.tracked sent
  have known := sound.store.fetched _ (here.fetched fetched (List.mem_of_getElem? taken)).1
  rw [show fetched.job.jobId = jobId from id.symm.trans same, fresh] at known
  cases known

private theorem inserted {jobData : SerializableOddJob} (valid : Reported cluster)
    (sound : Sound cluster) (fresh : cluster.store.knows jobData.jobId = false) :
    Reported { cluster with store := cluster.store.insert jobData cluster.now } := by
  refine ⟨valid.ordered, fun row member => ?_, fun row member => ?_⟩
  · rcases List.mem_append.mp member with older | newer
    · exact valid.status row older
    · exact .inl (List.mem_singleton.mp newer ▸ rfl)
  · rcases List.mem_append.mp member with older | newer
    · exact valid.retryCount row older
    · obtain rfl := List.mem_singleton.mp newer
      have none : cluster.incrementsOf jobData.jobId = [] := by
        refine List.filter_eq_nil_iff.mpr fun entry member chosen => ?_
        exact unapplied sound fresh entry member (of_decide_eq_true chosen).2
      exact (congrArg (fun entries => ((List.length entries : Nat) : Int)) none).symm

private theorem marked {command : Command} (valid : Reported cluster)
    (found : cluster.nodes[index]? = some node)
    (processed : changed.engine.processed = node.engine.processed ++ [command])
    (carried : changed.applied = node.applied ++ [(command, cluster.now)])
    (nodes : after.nodes = cluster.nodes.set index changed)
    (queue : after.store.tables.queue = updateWhere (fun q => q.jobGuid = command.jobId)
      (command.mark.set cluster.now) cluster.store.tables.queue) : Reported after := by
  have applied : after.applied.Perm ((command, cluster.now) :: cluster.applied) := by
    rw [Cluster.applied, nodes]
    exact flatMap_set_gain Node.applied found (carried ▸ List.perm_append_singleton _ _)
  have counted (jobId : Guid) : (after.incrementsOf jobId).length =
      (cluster.incrementsOf jobId).length +
        if command.mark.increments = true ∧ command.jobId = jobId then 1 else 0 := by
    rw [incrementsOf, (applied.filter _).length_eq, List.filter_cons]
    simp only [decide_eq_true_eq]
    split <;> rfl
  refine ⟨fun other member => ?_, fun row member => ?_, fun row member => ?_⟩
  · rw [nodes] at member
    rcases List.mem_or_eq_of_mem_set member with older | rfl
    · exact valid.ordered other older
    · rw [Node.AppliedInOrder, carried, processed, List.map_append]
      exact (valid.ordered node (List.mem_of_getElem? found)).append_right [command]
  · rw [queue] at member
    obtain ⟨old, present, rfl⟩ := mem_updateWhere.mp member
    split
    · rename_i own
      refine .inr (.inr ⟨_, applied.mem_iff.mpr List.mem_cons_self, ?_, ?_⟩)
      · simpa using (of_decide_eq_true own).symm
      · simp
    · refine (valid.status old present).imp_right (Or.imp_right ?_)
      rintro ⟨entry, listed, same⟩
      exact ⟨entry, applied.mem_iff.mpr (List.mem_cons_of_mem _ listed), same⟩
  · rw [queue] at member
    obtain ⟨old, present, rfl⟩ := mem_updateWhere.mp member
    have before := valid.retryCount old present
    split
    · rename_i own
      have same : old.jobGuid = command.jobId := of_decide_eq_true own
      rw [command.mark.set_retryCount, command.mark.set_jobGuid, counted, before]
      simp [same]
    · rename_i other
      have different : command.jobId ≠ old.jobGuid := fun same => other (by simp [same])
      rw [counted, before]
      simp [different]

variable [LinearOrder Key]

theorem moves (valid : Reported cluster) (sound : Sound cluster)
    (move : Moves configuration cluster action after) : Reported after := by
  cases move with
  | waited later ordered => exact valid.kept rfl fun row member => ⟨row, member, rfl, rfl, .inr rfl⟩
  | inserted jobData fresh => exact valid.inserted sound fresh
  | proceeded jobId insertion member same =>
    refine valid.kept rfl fun row stored => ?_
    obtain ⟨old, present, rfl | rfl⟩ := Store.mem_queue_proceed stored
    · exact ⟨row, present, rfl, rfl, .inr rfl⟩
    · exact ⟨old, present, rfl, rfl, .inl rfl⟩
  | crashed index node found => exact valid.quiet found rfl List.prefix_rfl
  | acted index node action engine found inside taken =>
    exact valid.quiet found rfl (processed_of_moves (Akka.moves_of_step taken))
  | claimed index node request lockGuid scan found =>
    have kept : Reported { cluster with
        store := cluster.store.claim (Node.call configuration request lockGuid cluster.now) scan
        locks := cluster.locks ++ [(lockGuid, index)] } := by
      refine valid.kept rfl fun row member => ?_
      obtain ⟨old, present, rfl⟩ := mem_updateWhere.mp member
      split <;> exact ⟨old, present, rfl, rfl, .inr rfl⟩
    exact kept.quiet found rfl List.prefix_rfl
  | replied index node lockGuid claimedAt rows engine found claimed returned taken =>
    exact quiet (valid.kept rfl fun row member => ⟨row, member, rfl, rfl, .inr rfl⟩) found rfl
      (processed_of_moves (Akka.moves_of_step taken))
  | threw index node engine found taken =>
    exact valid.quiet found rfl (processed_of_moves (Akka.moves_of_step taken))
  | applied index node command rest engine found front taken =>
    refine valid.marked found (by rw [processed_of_front front taken]) rfl rfl ?_
    rw [update, Store.mark, command.mark.apply_eq, updateJob]
  | lost index node command rest engine found front taken =>
    exact valid.quiet found rfl (processed_of_moves (Akka.moves_of_step taken))

end Reported

variable [LinearOrder Key]

theorem reported_of_reaches {now : Ticks} {settings : List (NodeSettings CliType Value)}
    {allowed : Cluster CliType Value → ClusterAction CliType Value → Prop}
    (reached : Reaches (step configuration) allowed (configured now settings) cluster) :
    Reported cluster := by
  induction reached with
  | refl =>
    refine ⟨fun node member => ?_, fun row none => (nomatch none), fun row none => (nomatch none)⟩
    obtain ⟨given, _, rfl⟩ := List.mem_map.mp member
    exact List.nil_sublist _
  | next earlier _ taken ih => exact ih.moves (sound_of_reaches earlier) (moves_of_step taken)

/-- Whatever processes do to each other, a status is no invention: a job that is settled,
waits for a retry or is in progress was fetched by a process that executed it, or hands it to a
worker, with that outcome. -/
theorem statuses_come_from_executions {now : Ticks}
    {settings : List (NodeSettings CliType Value)}
    (reached : Reaches (step configuration) anyAction (configured now settings) cluster)
    (member : row ∈ cluster.store.tables.queue) :
    row.status = .inserting ∨ row.status = .new ∨
      ∃ index node ticket fetched, cluster.Took row.jobGuid index node ticket fetched ∧
        node.engine.Explains ticket fetched row.status := by
  have sound := sound_of_reaches reached
  refine ((reported_of_reaches reached).status row member).imp_right (Or.imp_right ?_)
  rintro ⟨entry, listed, own, status⟩
  obtain ⟨node, present, carried⟩ := List.mem_flatMap.mp listed
  obtain ⟨index, found⟩ := List.mem_iff_getElem?.mp present
  have here := sound.node index node found
  have sent : entry.1 ∈ node.engine.commands := by
    rw [here.inOrder]
    exact List.mem_append_left _ (here.applied entry carried)
  obtain ⟨fetched, taken, id, explained⟩ := here.told.explains here.tracked sent
  exact ⟨index, node, entry.1.ticket, fetched, ⟨found, taken, id.symm.trans own⟩,
    status ▸ explained⟩

private theorem length_flatMap_le {Item Left Right : Type} {items : List Item}
    {left : Item → List Left} {right : Item → List Right}
    (bound : ∀ item ∈ items, (left item).length ≤ (right item).length) :
    (items.flatMap left).length ≤ (items.flatMap right).length := by
  induction items with
  | nil => exact Nat.le_refl 0
  | cons head rest ih =>
    rw [List.flatMap_cons, List.flatMap_cons, List.length_append, List.length_append]
    exact Nat.add_le_add (bound head List.mem_cons_self)
      (ih fun item member => bound item (List.mem_cons_of_mem head member))

/-- The retry count of a job is the number of increments that reached the database, whoever
sent them, and each of them has an execution of the job of its own that threw. -/
theorem retryCount_within_throws {now : Ticks} {settings : List (NodeSettings CliType Value)}
    (reached : Reaches (step configuration) anyAction (configured now settings) cluster)
    (member : row ∈ cluster.store.tables.queue) :
    row.retryCount = ((cluster.incrementsOf row.jobGuid).length : Int) ∧
      (cluster.incrementsOf row.jobGuid).length ≤ (cluster.throwsOf row.jobGuid).length := by
  have sound := sound_of_reaches reached
  have reported := reported_of_reaches reached
  refine ⟨reported.retryCount row member, ?_⟩
  rw [incrementsOf, applied, List.filter_flatMap]
  refine length_flatMap_le fun node listed => ?_
  obtain ⟨index, found⟩ := List.mem_iff_getElem?.mp listed
  exact (sound.node index node found).increments_le_throws (reported.ordered node listed)

private theorem retried_of_failure : ∃ cluster : Cluster String String,
    execute (fun _ _ => true) (step sampleConfiguration)
      (configured 0 [sampleNode, sampleNode]) sampleFailure = some cluster ∧
    ∃ row ∈ cluster.store.tables.queue, row.status = .retry ∧ row.retryCount = 1 := by
  have checked : (execute (fun _ _ => true) (step sampleConfiguration)
      (configured 0 [sampleNode, sampleNode]) sampleFailure).any (fun cluster =>
        ∃ row ∈ cluster.store.tables.queue, row.status = .retry ∧ row.retryCount = 1) = true := by
    decide +kernel
  obtain ⟨cluster, run, known⟩ := (Option.any_eq_true _ _).mp checked
  exact ⟨cluster, run, of_decide_eq_true known⟩

theorem statuses_come_from_executions_of_failure : ∃ cluster : Cluster String String,
    execute (fun _ _ => true) (step sampleConfiguration)
      (configured 0 [sampleNode, sampleNode]) sampleFailure = some cluster ∧
    ∃ row ∈ cluster.store.tables.queue, row.status = .retry ∧
      ∃ index node ticket fetched, cluster.Took row.jobGuid index node ticket fetched ∧
        node.engine.endingsFor ticket = [.threw] := by
  obtain ⟨cluster, run, row, member, retry, _⟩ := retried_of_failure
  refine ⟨cluster, run, row, member, retry, ?_⟩
  rcases statuses_come_from_executions (reaches_of_execute (fun _ _ _ => trivial) run) member with
    inserting | new | ⟨index, node, ticket, fetched, took, explained⟩
  · cases retry.symm.trans inserting
  · cases retry.symm.trans new
  · rw [retry] at explained
    exact ⟨index, node, ticket, fetched, took, explained.1⟩

theorem retryCount_within_throws_of_failure : ∃ cluster : Cluster String String,
    execute (fun _ _ => true) (step sampleConfiguration)
      (configured 0 [sampleNode, sampleNode]) sampleFailure = some cluster ∧
    ∃ row ∈ cluster.store.tables.queue, row.retryCount = 1 ∧
      1 ≤ (cluster.throwsOf row.jobGuid).length := by
  obtain ⟨cluster, run, row, member, _, one⟩ := retried_of_failure
  obtain ⟨count, within⟩ :=
    retryCount_within_throws (reaches_of_execute (fun _ _ _ => trivial) run) member
  refine ⟨cluster, run, row, member, one, ?_⟩
  omega

end Cluster

end OddJob
