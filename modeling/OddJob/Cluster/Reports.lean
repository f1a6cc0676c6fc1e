import OddJob.Cluster.Simulation

/-! The commands of a coordinator are the reports of the lease that it fetched the job
under, whether the row of the job still has that lease or not. -/

namespace OddJob.Cluster

open Akka Sql Linq Transition

variable {Key CliType Value : Type} {configuration : Configuration Key}
  {cluster : Cluster CliType Value} {jobId : Guid} {item : Lease.Item Guid Ticks} {index : Nat}
  {node : Node CliType Value} {command : Command} {rest : List LayerMessage}

/-- The queue layer has processed a command, and the database has carried it out. -/
def carryOut (node : Node CliType Value) (command : Command) (rest : List LayerMessage)
    (now : Ticks) : Node CliType Value :=
  { node with
    engine := { node.engine with
      layer := rest
      processed := node.engine.processed ++ [command] }
    applied := node.applied ++ [(command, now)] }

/-- The cluster then. -/
def afterMark (cluster : Cluster CliType Value) (index : Nat) (node : Node CliType Value)
    (command : Command) (rest : List LayerMessage) : Cluster CliType Value :=
  { cluster with store := cluster.store.mark command.mark command.jobId cluster.now }.update index
    (carryOut node command rest cluster.now)

section CarryOut

variable {now : Ticks} {ticket : Nat}

theorem inProgressAt_carryOut : (carryOut node command rest now).inProgressAt ticket =
    (node.inProgressAt ticket).or
      (if command.mark = .markJobInProgress ∧ command.ticket = ticket then some now else none) := by
  rw [Node.inProgressAt, Node.inProgressAt, carryOut, List.find?_append, Option.map_or]
  congr 1
  split <;> simp [*]

theorem closed_carryOut : (carryOut node command rest now).closed ticket =
    (node.closed ticket || decide (command.mark ≠ .markJobInProgress ∧ command.ticket = ticket)) := by
  simp [Node.closed, carryOut]

private theorem sameTicket_of_carryOut (different : ticket ≠ command.ticket) :
    SameTicket (carryOut node command rest now) node ticket where
  progress := rfl
  startedAt := by simp [inProgressAt_carryOut, different.symm]
  closed := by simp [closed_carryOut, different.symm]

end CarryOut

private theorem queue_mark (store : Store) (mark : Mark) (jobId : Guid) (now : Ticks) :
    (store.mark mark jobId now).tables.queue =
      updateWhere (fun q => q.jobGuid = jobId) (mark.set now) store.tables.queue := by
  rw [Store.mark, mark.apply_eq, updateJob]

section Report

variable {fetched : Fetched CliType Value} {holding moved : Lease.Holding Ticks}
  {status : Lease.Status} {attempts : Int}

private theorem Models.reported (valid : Models configuration jobId cluster item)
    (sound : Sound cluster) (took : cluster.Took jobId index node command.ticket fetched)
    (named : command.jobId = jobId) (held : item.holdings fetched.lockGuid = some holding)
    (model : LeaseModel configuration (carryOut node command rest cluster.now) command.ticket
      fetched item.limit moved)
    (shown : status ≠ .hidden)
    (row : ∀ row, row.retryCount = item.attempts →
      (command.mark.set cluster.now row).status.leaseStatus = status ∧
      (command.mark.set cluster.now row).retryCount = attempts) :
    Models configuration jobId (cluster.afterMark index node command rest)
      ({ item.report status with attempts }.hold fetched.lockGuid moved) := by
  have kept : (carryOut node command rest cluster.now).executionsOf jobId =
      node.executionsOf jobId := rfl
  have advanced : Models configuration jobId
      (cluster.update index (carryOut node command rest cluster.now))
      (item.hold fetched.lockGuid moved) :=
    valid.deed sound took held rfl rfl ⟨rfl, rfl, rfl, rfl, rfl, rfl⟩ rfl
      (fun _ => sameTicket_of_carryOut) model
      (valid.executions.trans (executionsOf_update took.found kept).symm)
  have present := valid.shown_of_held held
  obtain ⟨stored, member, own, old⟩ := valid.row_of_shown present
  obtain ⟨moves, counts⟩ := row stored old.attempts.symm
  have marked : RowModel configuration (command.mark.set cluster.now stored)
      ({ item.report status with attempts }.hold fetched.lockGuid moved) := by
    refine ⟨moves.symm, ?_, ?_, counts.symm, fun _ => ?_⟩
    · exact old.holder.trans (command.mark.set_lockGuid cluster.now stored).symm
    · rw [command.mark.set_lockClaimTime]
      rfl
    · exact (old.limit present).trans (command.mark.set_maxRetries cluster.now stored).symm
  exact advanced.rewritten sound.store.rowGuids (queue_mark _ _ _ _) (by simp) member own
    (by simp [own, named]) marked rfl rfl rfl shown advanced.owner (.inl rfl)

private theorem Models.closing (valid : Models configuration jobId cluster item)
    (sound : Sound cluster) (took : cluster.Took jobId index node command.ticket fetched)
    (named : command.jobId = jobId) (held : item.holdings fetched.lockGuid = some holding)
    (model : LeaseModel configuration node command.ticket fetched item.limit holding)
    (last : command.mark ≠ .markJobInProgress) (shown : status ≠ .hidden)
    (row : ∀ row, row.retryCount = item.attempts →
      (command.mark.set cluster.now row).status.leaseStatus = status ∧
      (command.mark.set cluster.now row).retryCount = attempts) :
    Models configuration jobId (cluster.afterMark index node command rest)
      ({ item.report status with attempts }.hold fetched.lockGuid
        { holding with closed := true }) := by
  refine valid.reported sound took named held ⟨model.deadline, model.seen, model.limit,
    model.progress, ?_, ?_⟩ shown row
  · rw [inProgressAt_carryOut, if_neg fun both => last both.1, Option.or_none]
    exact model.startedAt
  · simp [closed_carryOut, last]

private theorem Models.start (valid : Models configuration jobId cluster item)
    (sound : Sound cluster) (took : cluster.Took jobId index node command.ticket fetched)
    (named : command.jobId = jobId) (held : item.holdings fetched.lockGuid = some holding)
    (model : LeaseModel configuration node command.ticket fetched item.limit holding)
    (mark : command.mark = .markJobInProgress)
    (present : node.engine.stage command.ticket ≠ .missing)
    (dispatched : node.engine.stage command.ticket ≠ .fetched)
    (first : ∀ entry ∈ node.applied, entry.1.ticket ≠ command.ticket) :
    ∃ next, item.step (.deed fetched.lockGuid .start) = some next ∧
      Models configuration jobId (cluster.afterMark index node command rest) next := by
  have unstarted := Node.inProgressAt_eq_none fun entry member same =>
    absurd same (first entry member)
  have unclosed := Node.closed_eq_false fun entry member same => absurd same (first entry member)
  have busy : holding.progress ≠ .idle := by
    rw [model.progress]
    cases stage : node.engine.stage command.ticket with
    | missing => exact absurd stage present
    | fetched => exact absurd stage dispatched
    | _ => simp [Stage.progress]
  refine ⟨(item.report .started).hold fetched.lockGuid { holding with startedAt := some item.now },
    ?_, ?_⟩
  · simp [Lease.Item.step, Lease.Item.act, held, busy, model.closed, unclosed, model.startedAt,
      unstarted]
  · refine valid.reported sound took named held ⟨model.deadline, model.seen, model.limit,
      model.progress, ?_, ?_⟩ (by simp) fun row count => ?_
    · simp [inProgressAt_carryOut, unstarted, mark, valid.now]
    · simp [closed_carryOut, unclosed, mark, model.closed]
    · rw [mark]
      exact ⟨rfl, count⟩

private theorem Models.finish {outcome : Outcome} {now : Ticks}
    (valid : Models configuration jobId cluster item) (sound : Sound cluster)
    (took : cluster.Took jobId index node command.ticket fetched) (named : command.jobId = jobId)
    (held : item.holdings fetched.lockGuid = some holding)
    (model : LeaseModel configuration node command.ticket fetched item.limit holding)
    (mark : command.mark = Engine.terminalMark fetched outcome now)
    (stage : node.engine.stage command.ticket = .handled outcome now)
    (second : ∀ entry ∈ node.applied, entry.1.ticket = command.ticket →
      entry.1.mark = .markJobInProgress) :
    ∃ deed next, item.step (.deed fetched.lockGuid deed) = some next ∧
      Models configuration jobId (cluster.afterMark index node command rest) next := by
  have ended : holding.progress = .ended := by rw [model.progress, stage]; rfl
  have unclosed : holding.closed = false := model.closed.trans (Node.closed_eq_false second)
  have settles := mark ▸ Engine.terminalMark_settles fetched outcome now
  have last := settles.terminal
  by_cases again : ∃ lastAttempt, command.mark = .markJobInRetryAndIncrement lastAttempt
  · have spare : holding.seen.any (· < item.limit) = true := by
      obtain ⟨parameters, same, unexhausted⟩ := (settles.retry.mp again).2
      obtain rfl := Option.some.inj same
      rw [model.seen, ← model.limit, Option.any_some, decide_eq_true_eq]
      exact unexhausted
    refine ⟨.retry, { item.report .retrying with attempts := item.attempts + 1 }.hold
      fetched.lockGuid { holding with closed := true }, ?_, ?_⟩
    · simp [Lease.Item.step, Lease.Item.act, held, ended, unclosed, spare]
    · apply valid.closing sound took named held model last (by simp)
      intro row count
      obtain ⟨lastAttempt, retry⟩ := again
      rw [retry]
      exact ⟨rfl, congrArg (· + 1) count⟩
  · refine ⟨.settle, (item.report .settled).hold fetched.lockGuid { holding with closed := true },
      ?_, ?_⟩
    · simp [Lease.Item.step, Lease.Item.act, held, ended, unclosed]
    · apply valid.closing sound took named held model last (by simp)
      intro row count
      cases verdict : command.mark with
      | markJobInProgress => exact absurd verdict last
      | markJobInRetryAndIncrement lastAttempt => exact absurd ⟨lastAttempt, verdict⟩ again
      | markJobSuccess => exact ⟨rfl, count⟩
      | markJobFailed => exact ⟨rfl, count⟩

private theorem Models.refuse (valid : Models configuration jobId cluster item)
    (sound : Sound cluster) (took : cluster.Took jobId index node command.ticket fetched)
    (named : command.jobId = jobId) (held : item.holdings fetched.lockGuid = some holding)
    (model : LeaseModel configuration node command.ticket fetched item.limit holding)
    (mark : command.mark = .markJobFailed) (stage : node.engine.stage command.ticket = .missing)
    (first : ∀ entry ∈ node.applied, entry.1.ticket ≠ command.ticket) :
    ∃ next, item.step (.deed fetched.lockGuid .refuse) = some next ∧
      Models configuration jobId (cluster.afterMark index node command rest) next := by
  have idle : holding.progress = .idle := by rw [model.progress, stage]; rfl
  have unclosed : holding.closed = false :=
    model.closed.trans (Node.closed_eq_false fun entry member same =>
      absurd same (first entry member))
  refine ⟨(item.report .settled).hold fetched.lockGuid { holding with closed := true }, ?_, ?_⟩
  · simp [Lease.Item.step, Lease.Item.act, held, idle, unclosed]
  · apply valid.closing sound took named held model (by simp [mark]) (by simp)
    intro row count
    rw [mark]
    exact ⟨rfl, count⟩

end Report

theorem Models.applied {engine : Engine (Fetched CliType Value)}
    (valid : Models configuration jobId cluster item) (sound : Sound cluster)
    (found : cluster.nodes[index]? = some node)
    (front : node.engine.layer = .command command :: rest)
    (taken : node.engine.step .layerReceive = some engine) :
    Follows configuration jobId cluster (.command index true) ({ cluster with
      store := cluster.store.mark command.mark command.jobId cluster.now }.update index
        { node with engine, applied := node.applied ++ [(command, cluster.now)] }) item := by
  obtain rfl := processed_of_front front taken
  have here := sound.node index node found
  obtain ⟨fetched, known, named, turn⟩ := here.told.front here.inOrder front
  by_cases own : fetched.job.jobId = jobId
  · have took : cluster.Took jobId index node command.ticket fetched := ⟨found, known, own⟩
    obtain ⟨holding, held, model⟩ := valid.lease index node command.ticket fetched took
    have reports (deed : Lease.Deed) (owned : Owned cluster (.command index true)) :
        Lease.Owned item (.deed fetched.lockGuid deed) := by
      rintro lock other ⟨⟩ _
      obtain ⟨row, member, guid, model⟩ := valid.row_of_shown (valid.shown_of_held held)
      rw [model.holder]
      exact owned node found command (by simp [Node.nextCommand, front]) fetched known row member
        (guid.trans (own.symm.trans named.symm))
    rcases turn with ⟨mark, present, dispatched, first⟩ | ⟨outcome, now, mark, stage, second⟩ |
      ⟨mark, stage, first⟩
    · obtain ⟨next, stepped, after⟩ := valid.start sound took (named.trans own) held model mark
        present dispatched fun entry member => first entry.1 (here.applied entry member)
      exact .matched _ next stepped after (reports .start)
    · obtain ⟨deed, next, stepped, after⟩ := valid.finish sound took (named.trans own) held model
        mark stage fun entry member => second entry.1 (here.applied entry member)
      exact .matched _ next stepped after (reports deed)
    · obtain ⟨next, stepped, after⟩ := valid.refuse sound took (named.trans own) held model mark
        stage fun entry member => first entry.1 (here.applied entry member)
      exact .matched _ next stepped after (reports .refuse)
  · have spared : Models configuration jobId
        (cluster.update index (carryOut node command rest cluster.now)) item := by
      refine valid.steady sound found (List.Subset.refl _) sound.locks ⟨?_, fun _ _ => id, rfl⟩
        (valid.pending index node found)
      intro ticket copy taken same
      refine ⟨taken, sameTicket_of_carryOut ?_⟩
      rintro rfl
      obtain rfl : fetched = copy := Option.some.inj (known.symm.trans taken)
      exact own same
    refine .unnoticed (spared.elsewhere_update (queue_mark _ _ _ _) (by simp) fun row _ guid => ?_)
    rw [decide_eq_false_iff_not]
    exact fun same => own (named.symm.trans (same.symm.trans guid))

end OddJob.Cluster
