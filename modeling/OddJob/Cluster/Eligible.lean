import OddJob.Cluster.Exclusion
import OddJob.Sql.Rows

/-! With marks in time, a job that waits is a job the next fetch may have: nothing in
its row keeps it back but the dates that are meant to. -/

namespace OddJob.Cluster

open Akka Sql Transition

variable {Key CliType Value : Type} [LinearOrder Key] {configuration : Configuration Key}
  {cluster after : Cluster CliType Value}

theorem tidy_moves {action : ClusterAction CliType Value} (valid : cluster.store.Tidy)
    (sound : Sound cluster) (move : Moves configuration cluster action after) :
    after.store.Tidy := by
  cases move with
  | inserted jobData fresh => exact valid.insert jobData cluster.now
  | proceeded jobId insertion member same => exact valid.proceed insertion
  | claimed index node request lockGuid scan found asked free order unused =>
    exact valid.claim sound.store order
  | applied index node command rest engine found front taken =>
    exact valid.mark command.mark command.jobId cluster.now
  | _ => exact valid

theorem tidy_of_reaches {now : Ticks} {settings : List (NodeSettings CliType Value)}
    {allowed : Cluster CliType Value → ClusterAction CliType Value → Prop}
    (reached : Reaches (step configuration) allowed (configured now settings) cluster) :
    cluster.store.Tidy := by
  induction reached with
  | refl =>
    intro row none
    cases none
  | next earlier permitted taken ih =>
    exact tidy_moves ih (sound_of_reaches earlier) (moves_of_step taken)

omit [LinearOrder Key] in
/-- A row in `Retry` has an attempt left, as far as its record has. -/
theorem Models.spare_of_retry {row : SqlCommonDbOddJobMetaData} {item : Lease.Item Guid Ticks}
    (valid : Models configuration row.jobGuid cluster item)
    (spared : item.status = .retrying → item.attempts ≤ item.limit)
    (member : row ∈ cluster.store.tables.queue) (waiting : row.status = .retry) :
    row.retryCount ≤ row.maxRetries := by
  have model := valid.row row member rfl
  have retrying : item.status = .retrying := by rw [model.status, waiting]; rfl
  have spare := spared retrying
  rwa [model.attempts, model.limit (by simp [retrying])] at spare

omit [LinearOrder Key] in
/-- The `Where` of the locking query, date by date. -/
theorem eligible_of_dates {row : SqlCommonDbOddJobMetaData} {claim : Claim Key}
    (tidy : Tidy row) (waiting : row.status = .new ∨ row.status = .retry)
    (queue : row.queueName ∈ claim.queueNames)
    (due : ∀ date, row.doNotExecuteBefore = some date → date ≤ claim.lockTime)
    (unlocked : ∀ date, row.lockClaimTime = some date → date < claim.lockClaimTimeoutThreshold)
    (spare : row.status = .retry → row.retryCount ≤ row.maxRetries)
    (rested : row.status = .retry → ∀ date, row.lastAttempt = some date →
      date + row.minRetryWait * ticksPerSecond ≤ claim.lockTime) : claim.eligible row = true := by
  simp only [Claim.eligible, Sql.eligible, Bool.and_eq_true, Bool.or_eq_true, decide_eq_true_eq]
  refine ⟨⟨⟨by simpa using queue, ?_⟩, ?_⟩, ?_⟩
  · cases known : row.doNotExecuteBefore with
    | none => exact .inr rfl
    | some date => exact .inl (decide_eq_true (due date known))
  · refine waiting.imp_right fun retry => ⟨⟨retry, spare retry⟩, ?_⟩
    obtain ⟨date, attempted⟩ := Option.ne_none_iff_exists'.mp (tidy.attempted retry)
    rw [attempted]
    exact decide_eq_true (rested retry date attempted)
  · cases known : row.lockClaimTime with
    | none => exact .inl rfl
    | some date => exact .inr (decide_eq_true (unlocked date known))

/-- A job in `New` or `Retry` passes the test of every fetch from its queue whose time is
later than the dates of its row; and its row is one that can pass. -/
theorem waiting_jobs_are_eligible {now : Ticks} {settings : List (NodeSettings CliType Value)}
    (reached : Reaches (step configuration) (staying (step configuration) (Timely configuration))
      (configured now settings) cluster) :
    ∀ row ∈ cluster.store.tables.queue,
      (row.lockClaimTime ≠ none → row.status = .new ∨ row.status = .retry) ∧
      (row.status = .retry → row.lastAttempt ≠ none ∧ row.retryCount ≤ row.maxRetries) ∧
      (row.status = .new ∨ row.status = .retry → ∀ claim : Claim Key,
        row.queueName ∈ claim.queueNames →
        claim.jobClaimLockTimeoutInSeconds = configuration.jobClaimLockTimeoutInSeconds →
        (∀ date, row.doNotExecuteBefore = some date → date < claim.lockTime) →
        (∀ date, row.lockClaimTime = some date →
          date + configuration.lockTimeout < claim.lockTime) →
        (row.status = .retry → ∀ date, row.lastAttempt = some date →
          date + row.minRetryWait * ticksPerSecond < claim.lockTime) →
        claim.eligible row = true) := by
  intro row member
  have tidy := tidy_of_reaches reached row member
  obtain ⟨item, valid, guarded⟩ := exists_guarded reached row.jobGuid
  have spare := valid.spare_of_retry guarded.retrying member
  refine ⟨tidy.claimed, fun retry => ⟨tidy.attempted retry, spare retry⟩, ?_⟩
  intro waiting claim queue timeout due unlocked rested
  refine eligible_of_dates tidy waiting queue (fun date known => Int.le_of_lt (due date known))
    (fun date known => ?_) spare fun retry date known => Int.le_of_lt (rested retry date known)
  have old := unlocked date known
  rw [Claim.lockClaimTimeoutThreshold, timeout]
  exact Int.lt_sub_right_of_add_lt old

def sampleFailure : List (ClusterAction String String) :=
  sampleRun ++ sampleFinish 0 .threw ++ [.command 0 true]

theorem waiting_jobs_are_eligible_of_failure : ∃ cluster : Cluster String String,
    execute (keeping (step sampleConfiguration) (Timely sampleConfiguration))
      (step sampleConfiguration) (configured 0 [sampleNode, sampleNode]) sampleFailure =
        some cluster ∧
    ∃ row ∈ cluster.store.tables.queue, row.status = .retry ∧
      Store.sampleClaim.eligible row = true := by
  have checked : (execute (keeping (step sampleConfiguration) (Timely sampleConfiguration))
      (step sampleConfiguration) (configured 0 [sampleNode, sampleNode]) sampleFailure).any
        (fun cluster => ∃ row ∈ cluster.store.tables.queue, row.status = .retry ∧
          row.queueName ∈ Store.sampleClaim.queueNames ∧ row.doNotExecuteBefore = none ∧
          row.lockClaimTime = none ∧ row.lastAttempt = some 0 ∧ row.minRetryWait = 0) = true := by
    decide +kernel
  obtain ⟨cluster, run, known⟩ := (Option.any_eq_true _ _).mp checked
  obtain ⟨row, member, retry, queue, due, unlocked, attempt, wait⟩ := of_decide_eq_true known
  refine ⟨cluster, run, row, member, retry, ?_⟩
  have waiting := waiting_jobs_are_eligible (reaches_of_execute (fun _ _ => staying_of_keeping) run)
  refine (waiting row member).2.2 (.inr retry) Store.sampleClaim queue rfl ?_ ?_ fun _ date same => ?_
  · rw [due]
    rintro _ ⟨⟩
  · rw [unlocked]
    rintro _ ⟨⟩
  · rw [attempt] at same
    cases same
    rw [wait]
    decide

end OddJob.Cluster
