import OddJob.Cluster.Eligible

/-! Marks go by the id of the job alone. A command that comes after its claim has been
taken over overwrites the work of the process that took it over; commands that find
the lock of their claim do not. -/

namespace OddJob.Cluster

open Akka Sql Transition

variable {Key CliType Value : Type} {configuration : Configuration Key}
  {cluster after : Cluster CliType Value} {item next : Lease.Item Guid Ticks}

theorem leaseStatus_eq_settled {status : JobStates} (named : ∀ text, status ≠ .other text) :
    status.leaseStatus = .settled ↔ status.terminal = true := by
  cases status with
  | other text => exact absurd rfl (named text)
  | _ => simp [JobStates.leaseStatus, JobStates.terminal]

theorem Models.settled_iff {row : SqlCommonDbOddJobMetaData}
    (valid : Models configuration row.jobGuid cluster item) (tidy : cluster.store.Tidy)
    (member : row ∈ cluster.store.tables.queue) :
    item.status = .settled ↔ row.status.terminal = true := by
  rw [(valid.row row member rfl).status]
  exact leaseStatus_eq_settled (tidy row member).named

variable [LinearOrder Key]

/-- As long as every command is carried out while its claim is the last one of the row, a
job that is processed or failed stays so, and no job waits for a retry it may not have. -/
theorem settled_jobs_stay_settled {now : Ticks} {settings : List (NodeSettings CliType Value)}
    (reached : Reaches (step configuration) Owned (configured now settings) cluster)
    (later : Reaches (step configuration) Owned cluster after) :
    (∀ row ∈ cluster.store.tables.queue, row.status.terminal = true →
      ∀ final ∈ after.store.tables.queue, final.jobGuid = row.jobGuid →
        final.status.terminal = true) ∧
    ∀ row ∈ after.store.tables.queue, row.status = .retry → row.retryCount ≤ row.maxRetries := by
  constructor
  · intro row member terminal final present same
    obtain ⟨item, valid, run⟩ := exists_owned reached row.jobGuid
    obtain ⟨next, more, _, model⟩ := (simulation configuration row.jobGuid allows_owned).reaches
      ⟨sound_of_reaches reached, valid⟩ later
    have ended := (valid.settled_iff (tidy_of_reaches reached) member).mpr terminal
    have settled := Lease.settled_of_reaches run more ended
    exact ((same ▸ model).settled_iff (tidy_of_reaches (reached.trans later)) present).mp settled
  · intro row member waiting
    obtain ⟨item, valid, run⟩ := exists_owned (reached.trans later) row.jobGuid
    exact valid.spare_of_retry (Lease.fenced_of_reaches run).retrying member waiting

def sampleSuccess : List (ClusterAction String String) :=
  sampleRun ++ sampleFinish 0 .returned ++ [.command 0 true]

def sampleAgain : List (ClusterAction String String) :=
  [.act 1 (.next 0 .returned)] ++ sampleFetch 1 42
    { sampleRow with status := .processed, lockGuid := some 40, lastAttempt := some 0 }

theorem settled_jobs_stay_settled_of_success : ∃ cluster after : Cluster String String,
    execute (fun before action => decide (Owned before action)) (step sampleConfiguration)
      (configured 0 [sampleNode, sampleNode]) sampleSuccess = some cluster ∧
    execute (fun before action => decide (Owned before action)) (step sampleConfiguration)
      cluster sampleAgain = some after ∧
    ∃ row ∈ cluster.store.tables.queue, row.status = .processed ∧
      ∀ final ∈ after.store.tables.queue, final.jobGuid = row.jobGuid →
        final.status.terminal = true := by
  have checked : (execute (fun before action => decide (Owned before action))
      (step sampleConfiguration) (configured 0 [sampleNode, sampleNode]) sampleSuccess).any
        (fun cluster => (execute (fun before action => decide (Owned before action))
            (step sampleConfiguration) cluster sampleAgain).isSome ∧
          ∃ row ∈ cluster.store.tables.queue, row.status = .processed) = true := by
    decide +kernel
  obtain ⟨cluster, run, known⟩ := (Option.any_eq_true _ _).mp checked
  obtain ⟨again, row, member, processed⟩ := of_decide_eq_true known
  obtain ⟨after, later⟩ := Option.isSome_iff_exists.mp again
  have settled := settled_jobs_stay_settled
    (reaches_of_execute (fun _ _ => of_decide_eq_true) run)
    (reaches_of_execute (fun _ _ => of_decide_eq_true) later)
  exact ⟨cluster, after, run, later, row, member, processed,
    settled.1 row member (processed ▸ rfl)⟩

/-- The first process claims the job and hands it to its worker; nothing is marked until
the lock has timed out and the second process has done the same. -/
def sampleTakeover : List (ClusterAction String String) :=
  let locked := { sampleRow with lockGuid := some 40, lockClaimTime := some 0 }
  let taken := { sampleRow with lockGuid := some 41, lockClaimTime := some 1800000001 }
  sampleInsert ++ sampleFetch 0 40 sampleRow ++ [.reply 0 [⟨locked, {}, {}⟩]] ++
    sampleDispatch 0 ++ [.wait 1800000001] ++
    sampleFetch 1 41 locked ++ [.reply 1 [⟨taken, {}, {}⟩]] ++ sampleDispatch 1

def sampleLate : List (ClusterAction String String) :=
  [.command 1 true] ++ sampleFinish 1 .returned ++ [.command 1 true]

def sampleTwice : List (ClusterAction String String) :=
  [.command 0 true, .command 1 true] ++ sampleFinish 0 .threw ++ sampleFinish 1 .threw ++
    [.command 0 true, .command 1 true]

def sampleAfter (actions : List (ClusterAction String String)) : Cluster String String :=
  (execute (fun _ _ => true) (step sampleConfiguration) (configured 0 [sampleNode, sampleNode])
    actions).getD (configured 0 [])

private theorem reaches_sampleAfter {actions : List (ClusterAction String String)}
    (done : (execute (fun _ _ => true) (step sampleConfiguration)
      (configured 0 [sampleNode, sampleNode]) actions).isSome = true) :
    Reaches (step sampleConfiguration) anyAction (configured 0 [sampleNode, sampleNode])
      (sampleAfter actions) := by
  obtain ⟨cluster, run⟩ := Option.isSome_iff_exists.mp done
  rw [sampleAfter, run]
  exact reaches_of_execute (fun _ _ _ => trivial) run

theorem late_marks_overwrite :
    ¬ (∀ cluster after : Cluster String String,
      Reaches (step sampleConfiguration) anyAction
        (configured 0 [sampleNode, sampleNode]) cluster →
      Reaches (step sampleConfiguration) anyAction cluster after →
      ∀ row ∈ cluster.store.tables.queue, row.status.terminal = true →
      ∀ final ∈ after.store.tables.queue, final.jobGuid = row.jobGuid →
        final.status.terminal = true) ∧
    ¬ (∀ cluster : Cluster String String,
      Reaches (step sampleConfiguration) anyAction
        (configured 0 [sampleNode, sampleNode]) cluster →
      ∀ row ∈ cluster.store.tables.queue, row.status = .retry →
        row.retryCount ≤ row.maxRetries) := by
  constructor
  · intro kept
    have processed := @reaches_sampleAfter (sampleTakeover ++ sampleLate) (by decide +kernel)
    have settled : ∃ row ∈ (sampleAfter (sampleTakeover ++ sampleLate)).store.tables.queue,
        row.status.terminal = true ∧ row.jobGuid = 7 := by decide +kernel
    have overwritten : (execute (fun _ _ => true) (step sampleConfiguration)
        (sampleAfter (sampleTakeover ++ sampleLate)) [.command 0 true]).any (fun after =>
          ∃ final ∈ after.store.tables.queue, final.jobGuid = 7 ∧
            final.status.terminal = false) = true := by decide +kernel
    obtain ⟨row, member, terminal, guid⟩ := settled
    obtain ⟨after, run, known⟩ := (Option.any_eq_true _ _).mp overwritten
    obtain ⟨final, present, same, unsettled⟩ := of_decide_eq_true known
    have still := kept _ after processed (reaches_of_execute (fun _ _ _ => trivial) run) row member
      terminal final present (same.trans guid.symm)
    rw [unsettled] at still
    cases still
  · intro bounded
    have twice := @reaches_sampleAfter (sampleTakeover ++ sampleTwice) (by decide +kernel)
    have beyond : ∃ row ∈ (sampleAfter (sampleTakeover ++ sampleTwice)).store.tables.queue,
        row.status = .retry ∧ ¬ row.retryCount ≤ row.maxRetries := by decide +kernel
    obtain ⟨row, member, retry, more⟩ := beyond
    exact more (bounded _ twice row member retry)

end OddJob.Cluster
