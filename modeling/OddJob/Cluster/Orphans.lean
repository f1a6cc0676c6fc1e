import OddJob.Akka.Drain
import OddJob.Cluster.Overwrite

/-! Jobs in progress. Each of them is in the hands of some process, and when that process
is gone nobody else ever takes the job over: no fetch looks at jobs in progress. -/

namespace OddJob

open Akka Sql Linq Transition

variable {Key CliType Value : Type}

/-- The process that takes a step. -/
def ClusterAction.process : ClusterAction CliType Value → Option Nat
  | .wait _ | .insert _ | .proceed _ => none
  | .crash index | .act index _ | .claim index _ _ | .reply index _ | .fetchThrew index
  | .command index _ => some index

/-- The last command of a job has been processed, and the database has not carried it out. -/
def Node.Lost (node : Node CliType Value) (ticket : Nat) : Prop :=
  ∃ command ∈ node.engine.processed, command.ticket = ticket ∧
    command.mark ≠ .markJobInProgress ∧ ∀ entry ∈ node.applied, entry.1 ≠ command

namespace Cluster

/-- The job is in progress in a process that has crashed. -/
structure Orphaned (cluster : Cluster CliType Value) (row : SqlCommonDbOddJobMetaData)
    (index : Nat) : Prop where
  stored : row ∈ cluster.store.tables.queue
  started : row.status = .inProgress
  locked : ∃ lock, row.lockGuid = some lock ∧ (lock, index) ∈ cluster.locks
  dead : ∃ node, cluster.nodes[index]? = some node ∧ node.crashed = true

variable {configuration : Configuration Key} {cluster after : Cluster CliType Value}
  {row : SqlCommonDbOddJobMetaData} {index other : Nat} {node : Node CliType Value}

/-- A lock of a crashed process is no lock of a process that runs. -/
theorem Orphaned.foreign {lock : Guid} (orphan : Orphaned cluster row index) (sound : Sound cluster)
    (found : cluster.nodes[other]? = some node) (alive : node.crashed = false)
    (owned : (lock, other) ∈ cluster.locks) : row.lockGuid ≠ some lock := by
  intro same
  obtain ⟨own, locked, listed⟩ := orphan.locked
  obtain rfl : own = lock := Option.some.inj (locked.symm.trans same)
  obtain rfl := owner_unique sound.locks listed owned
  obtain ⟨gone, here, crashed⟩ := orphan.dead
  obtain rfl : node = gone := Option.some.inj (found.symm.trans here)
  rw [alive] at crashed
  cases crashed

variable [LinearOrder Key] {action : ClusterAction CliType Value}

theorem alive_of_step (taken : cluster.step configuration action = some after)
    (acts : action.process = some index) (found : cluster.nodes[index]? = some node) :
    node.crashed = false := by
  obtain ⟨same, running⟩ : ∃ node, cluster.running index = some node := by
    cases action with
    | wait | insert | proceed => cases acts
    | crash | act | claim | reply | fetchThrew | command =>
      cases acts
      obtain ⟨node, running, _⟩ := Option.bind_eq_some_iff.mp taken
      exact ⟨node, running⟩
  obtain ⟨here, alive⟩ := Option.filter_eq_some_iff.mp running
  obtain rfl : node = same := Option.some.inj (found.symm.trans here)
  simpa using alive

theorem node_of_moves (move : Moves configuration cluster action after)
    (rests : action.process ≠ some index) : after.nodes[index]? = cluster.nodes[index]? := by
  have elsewhere {acting : Nat} (changed : Node CliType Value)
      (different : some acting ≠ some index) :
      (cluster.nodes.set acting changed)[index]? = cluster.nodes[index]? :=
    List.getElem?_set_ne fun same => different (congrArg some same)
  cases move with
  | waited | inserted | proceeded => rfl
  | _ => exact elsewhere _ rests

theorem locks_of_moves (move : Moves configuration cluster action after) :
    cluster.locks ⊆ after.locks := by
  cases move with
  | claimed => exact List.subset_append_left _ _
  | _ => exact List.Subset.refl _

private theorem Orphaned.proceeded {insertion : Insertion} (orphan : Orphaned cluster row index)
    (sound : Sound cluster) (member : insertion ∈ cluster.store.insertions) :
    row ∈ (cluster.store.proceed insertion).tables.queue := by
  cases point : insertion.point with
  | inserted | paramsCopied | published =>
    simpa [Store.proceed, point] using orphan.stored
  | genericsCopied =>
    have other : row.id ≠ insertion.insertedId := by
      intro same
      have hidden := (sound.store.hidden insertion member (by simp [point])).2 row orphan.stored
        ((sound.store.id_iff_guid member orphan.stored).mp same)
      rw [orphan.started] at hidden
      cases hidden.1
    simp only [Store.proceed, point, Tables.publish]
    exact mem_updateWhere.mpr ⟨row, orphan.stored, by simp [other]⟩

private theorem Orphaned.claimed {call : Claim Key} {scan : List SqlCommonDbOddJobMetaData}
    (orphan : Orphaned cluster row index) (sound : Sound cluster)
    (order : scan.Perm cluster.store.tables.queue) :
    row ∈ (cluster.store.claim call scan).tables.queue := by
  refine mem_updateWhere.mpr ⟨row, orphan.stored, ?_⟩
  split
  · rename_i takes
    have eligible := call.eligible_of_takes order sound.store.rowIds orphan.stored takes
    simp [Claim.eligible, Sql.eligible, orphan.started] at eligible
  · rfl

omit [LinearOrder Key] in
private theorem Orphaned.marked {command : Command} {rest : List LayerMessage}
    (orphan : Orphaned cluster row index) (sound : Sound cluster)
    (found : cluster.nodes[other]? = some node) (alive : node.crashed = false)
    (front : node.engine.layer = .command command :: rest)
    (owned : Owned cluster (.command other true)) :
    row ∈ (cluster.store.mark command.mark command.jobId cluster.now).tables.queue := by
  have here := sound.node other node found
  obtain ⟨fetched, known, _, _⟩ := here.told.front here.inOrder front
  have lock := (here.fetched fetched (List.mem_of_getElem? known)).2
  have spared : row.jobGuid ≠ command.jobId := fun same =>
    orphan.foreign sound found alive lock
      (owned node found command (by simp [Node.nextCommand, front]) fetched known row orphan.stored
        same)
  rw [Store.mark, command.mark.apply_eq, updateJob]
  exact mem_updateWhere.mpr ⟨row, orphan.stored, by simp [spared]⟩

theorem Orphaned.step (orphan : Orphaned cluster row index) (sound : Sound cluster)
    (owned : Owned cluster action) (taken : cluster.step configuration action = some after) :
    Orphaned after row index := by
  have move := moves_of_step taken
  obtain ⟨dead, here, crashed⟩ := orphan.dead
  have rests : action.process ≠ some index := by
    intro acts
    rw [alive_of_step taken acts here] at crashed
    cases crashed
  obtain ⟨lock, locked, listed⟩ := orphan.locked
  refine ⟨?_, orphan.started, ⟨lock, locked, locks_of_moves move listed⟩,
    ⟨dead, (node_of_moves move rests).trans here, crashed⟩⟩
  cases move with
  | inserted jobData fresh => exact List.mem_append_left _ orphan.stored
  | proceeded jobId insertion member same => exact orphan.proceeded sound member
  | claimed acting node request lockGuid scan found asked free order unused =>
    exact orphan.claimed sound order
  | applied acting node command rest engine found front stepped =>
    exact orphan.marked sound found (alive_of_step taken rfl found) front owned
  | _ => exact orphan.stored

/-- A job in progress whose process crashes is in progress for good: as long as commands
find the lock of their claim, no step of any process, of an adder or of the clock changes
its row. -/
theorem orphaned_jobs_stay_in_progress {now : Ticks}
    {settings : List (NodeSettings CliType Value)}
    (reached : Reaches (step configuration) Owned (configured now settings) cluster)
    (later : Reaches (step configuration) Owned cluster after)
    (orphan : Orphaned cluster row index) : Orphaned after row index := by
  induction later with
  | refl => exact orphan
  | next earlier owned taken ih =>
    exact ih.step (sound_of_reaches (reached.trans earlier)) owned taken

omit [LinearOrder Key] in
private theorem Orphaned.unstarted {item : Lease.Item Guid Ticks} {ticket : Nat}
    {fetched : Fetched CliType Value} (orphan : Orphaned cluster row index)
    (sound : Sound cluster) (valid : Models configuration row.jobGuid cluster item)
    (guarded : Lease.Guarded item)
    (took : cluster.Took row.jobGuid other node ticket fetched) (alive : node.crashed = false)
    (stage : node.engine.stage ticket = .waiting) : False := by
  obtain ⟨holding, held, model⟩ := valid.lease other node ticket fetched took
  have unclosed : node.closed ticket = false :=
    (sound.node other node took.found).closed_unhandled (by simp [stage])
      (by simp [stage, Stage.isHandled])
  have live : holding.Live item.now := by
    refine ⟨model.closed.trans unclosed, .inl ?_⟩
    rw [model.progress, stage]
    simp [Stage.progress]
  have own := (guarded.held fetched.lockGuid holding held live).own
  rw [(valid.row row orphan.stored rfl).holder] at own
  exact orphan.foreign sound took.found alive (took.owned sound) own

private theorem Orphaned.unexecuted {item : Lease.Item Guid Ticks}
    (orphan : Orphaned cluster row index) (sound : Sound cluster)
    (valid : Models configuration row.jobGuid cluster item) (guarded : Lease.Guarded item)
    (taken : cluster.step configuration action = some after) :
    (after.executionsOf row.jobGuid).length = (cluster.executionsOf row.jobGuid).length := by
  have same {acting : Nat} {node : Node CliType Value} (found : cluster.nodes[acting]? = some node)
      (changed : Node CliType Value) (began : changed.engine.began = node.engine.began) :
      ((cluster.update acting changed).executionsOf row.jobGuid).length =
        (cluster.executionsOf row.jobGuid).length :=
    executionsOf_update found (by rw [Node.executionsOf, began]; rfl)
  cases moves_of_step taken with
  | waited | inserted | proceeded => rfl
  | crashed acting node found => exact same found _ rfl
  | claimed acting node request lockGuid scan found => exact same found _ rfl
  | replied acting node lockGuid claimedAt rows engine found claimed returned stepped =>
    exact same found _ (taken_of_layerReply stepped).2.1
  | threw acting node engine found stepped =>
    exact same found _ (taken_of_layerReply stepped).2.1
  | applied acting node command rest engine found front stepped =>
    exact same found _ (by rw [processed_of_front front stepped])
  | lost acting node command rest engine found front stepped =>
    exact same found _ (by rw [processed_of_front front stepped])
  | acted acting node action engine found inside stepped =>
    cases (sound.node acting node found).advance stepped with
    | still _ _ began => exact same found _ began
    | delivered _ _ _ _ began => exact same found _ began
    | moved ticket fetched reached known leads _ _ began =>
      refine executionsOf_update found ?_
      rw [Node.executionsOf, began, List.filter_append]
      split
      · rename_i executing
        subst executing
        by_cases own : fetched.job.jobId = row.jobGuid
        · generalize stage : node.engine.stage ticket = earlier at leads
          cases leads
          exact (orphan.unstarted sound valid guarded ⟨found, known, own⟩
            (alive_of_step taken rfl found) stage).elim
        · simp [own, Node.executionsOf]
      · simp [Node.executionsOf]

/-- Nor does any process execute the job again, where marks are in time. -/
theorem orphaned_jobs_never_run_again {now : Ticks} {settings : List (NodeSettings CliType Value)}
    (reached : Reaches (step configuration)
      (staying (step configuration) (Timely configuration)) (configured now settings) cluster)
    (later : Reaches (step configuration) (fun before action => Owned before action ∧
      staying (step configuration) (Timely configuration) before action) cluster after)
    (orphan : Orphaned cluster row index) :
    Orphaned after row index ∧
      (after.executionsOf row.jobGuid).length = (cluster.executionsOf row.jobGuid).length := by
  have timely {final : Cluster CliType Value} (run : Reaches (step configuration)
      (fun before action => Owned before action ∧
        staying (step configuration) (Timely configuration) before action) cluster final) :
      Reaches (step configuration) (staying (step configuration) (Timely configuration))
        (configured now settings) final :=
    run.invariant reached fun _ _ _ earlier permitted taken => earlier.next permitted.2 taken
  induction later with
  | refl => exact ⟨orphan, rfl⟩
  | next earlier permitted taken ih =>
    obtain ⟨still, count⟩ := ih
    have run := timely earlier
    obtain ⟨item, valid, guarded⟩ := exists_guarded run row.jobGuid
    exact ⟨still.step (sound_of_reaches run) permitted.1 taken,
      (still.unexecuted (sound_of_reaches run) valid guarded taken).trans count⟩

omit [LinearOrder Key] in
private theorem sent_of_inProgressAt {ticket : Nat} (sound : Sound cluster)
    (found : cluster.nodes[index]? = some node)
    (marked : (node.inProgressAt ticket).isSome = true) :
    ∃ command ∈ node.engine.commandsFor ticket, command.mark = .markJobInProgress := by
  rw [Node.inProgressAt, Option.isSome_map, List.find?_isSome] at marked
  obtain ⟨entry, member, known⟩ := marked
  obtain ⟨mark, same⟩ := of_decide_eq_true known
  have here := sound.node index node found
  refine ⟨entry.1, List.mem_filter.mpr ⟨?_, decide_eq_true same⟩, mark⟩
  rw [here.inOrder]
  exact List.mem_append_left _ (here.applied entry member)

omit [LinearOrder Key] in
/-- An engine with nothing left to do has had the last command of every job processed. -/
theorem lost_of_drained {jobId : Guid} {ticket : Nat} {fetched : Fetched CliType Value}
    (sound : Sound cluster) (took : cluster.Took jobId index node ticket fetched)
    (marked : (node.inProgressAt ticket).isSome = true) (unclosed : node.closed ticket = false)
    (drained : Drained node.engine) : node.Lost ticket := by
  obtain ⟨_, _, _, reached⟩ := (sound.node index node took.found).engine
  have finished := drained.finished reached
  have settled := finished.settled ticket fetched took.taken
  obtain ⟨started, listed, mark⟩ := sent_of_inProgressAt sound took.found marked
  unfold Engine.Settled at settled
  split at settled
  · rw [settled.2, List.mem_singleton] at listed
    subst listed
    cases mark
  · obtain ⟨outcome, last, settles, _, sent⟩ := settled
    have inside : ⟨last, OddJobWithMetadata.jobId fetched, ticket⟩ ∈
        node.engine.commandsFor ticket := by simp [sent]
    refine ⟨_, finished.processed ▸ (List.mem_filter.mp inside).1, rfl, settles.terminal, ?_⟩
    rintro entry member same
    rw [Node.closed, List.any_eq_false] at unclosed
    exact unclosed entry member (decide_eq_true (same ▸ ⟨settles.terminal, rfl⟩))

/-- The first process crashes over the job, and the second one asks for jobs a day later. -/
def sampleCrash : List (ClusterAction String String) := sampleRun ++ [.crash 0]

def sampleLater : List (ClusterAction String String) :=
  [.act 1 (.next 0 .returned), .wait 864000000000] ++ sampleFetch 1 42
    { sampleRow with status := .inProgress, lockGuid := some 40, lastAttempt := some 0 } ++
      [.reply 1 []]

private theorem orphaned_of_seen {cluster : Cluster String String}
    (seen : (∃ row ∈ cluster.store.tables.queue, row.status = .inProgress ∧
      row.lockGuid = some 40) ∧ (40, 0) ∈ cluster.locks ∧
      cluster.nodes[0]?.any (fun node => node.crashed) = true) :
    ∃ row, Orphaned cluster row 0 := by
  obtain ⟨⟨row, stored, started, locked⟩, owned, dead⟩ := seen
  exact ⟨row, stored, started, ⟨40, locked, owned⟩, (Option.any_eq_true _ _).mp dead⟩

theorem orphaned_jobs_stay_in_progress_of_crash : ∃ cluster after : Cluster String String,
    execute (fun before action => decide (Owned before action)) (step sampleConfiguration)
      (configured 0 [sampleNode, sampleNode]) sampleCrash = some cluster ∧
    execute (fun before action => decide (Owned before action)) (step sampleConfiguration)
      cluster sampleLater = some after ∧
    ∃ row, Orphaned cluster row 0 ∧ Orphaned after row 0 := by
  have checked : (execute (fun before action => decide (Owned before action))
      (step sampleConfiguration) (configured 0 [sampleNode, sampleNode]) sampleCrash).any
        (fun cluster => (execute (fun before action => decide (Owned before action))
            (step sampleConfiguration) cluster sampleLater).isSome ∧
          (∃ row ∈ cluster.store.tables.queue, row.status = .inProgress ∧
            row.lockGuid = some 40) ∧ (40, 0) ∈ cluster.locks ∧
          cluster.nodes[0]?.any (fun node => node.crashed) = true) = true := by
    decide +kernel
  obtain ⟨cluster, run, known⟩ := (Option.any_eq_true _ _).mp checked
  obtain ⟨again, seen⟩ := of_decide_eq_true known
  obtain ⟨after, later⟩ := Option.isSome_iff_exists.mp again
  obtain ⟨row, orphan⟩ := orphaned_of_seen seen
  exact ⟨cluster, after, run, later, row, orphan,
    orphaned_jobs_stay_in_progress (reaches_of_execute (fun _ _ => of_decide_eq_true) run)
      (reaches_of_execute (fun _ _ => of_decide_eq_true) later) orphan⟩

private def orderly (before : Cluster String String) (action : ClusterAction String String) :
    Bool :=
  decide (Owned before action) &&
    keeping (step sampleConfiguration) (Timely sampleConfiguration) before action

theorem orphaned_jobs_never_run_again_of_crash : ∃ cluster after : Cluster String String,
    execute (keeping (step sampleConfiguration) (Timely sampleConfiguration))
      (step sampleConfiguration) (configured 0 [sampleNode, sampleNode]) sampleCrash =
        some cluster ∧
    execute orderly (step sampleConfiguration) cluster sampleLater = some after ∧
    ∃ row, Orphaned after row 0 ∧ (after.executionsOf row.jobGuid).length =
      (cluster.executionsOf row.jobGuid).length := by
  have checked : (execute (keeping (step sampleConfiguration) (Timely sampleConfiguration))
      (step sampleConfiguration) (configured 0 [sampleNode, sampleNode]) sampleCrash).any
        (fun cluster => (execute orderly (step sampleConfiguration) cluster sampleLater).isSome ∧
          (∃ row ∈ cluster.store.tables.queue, row.status = .inProgress ∧
            row.lockGuid = some 40) ∧ (40, 0) ∈ cluster.locks ∧
          cluster.nodes[0]?.any (fun node => node.crashed) = true) = true := by
    decide +kernel
  obtain ⟨cluster, run, known⟩ := (Option.any_eq_true _ _).mp checked
  obtain ⟨again, seen⟩ := of_decide_eq_true known
  obtain ⟨after, later⟩ := Option.isSome_iff_exists.mp again
  obtain ⟨row, orphan⟩ := orphaned_of_seen seen
  refine ⟨cluster, after, run, later, row, ?_⟩
  refine orphaned_jobs_never_run_again (reaches_of_execute (fun _ _ => staying_of_keeping) run)
    (reaches_of_execute (fun before action ok => ?_) later) orphan
  obtain ⟨owned, timely⟩ := Bool.and_eq_true_iff.mp ok
  exact ⟨of_decide_eq_true owned, staying_of_keeping timely⟩

/-- The execution succeeds, and the statement of its last command throws. After that no engine
has anything left to do. -/
def sampleLost : List (ClusterAction String String) :=
  sampleRun ++ [.act 1 (.next 0 .returned)] ++ sampleFinish 0 .returned ++ [.command 0 false]

end Cluster

end OddJob
