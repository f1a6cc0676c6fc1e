import OddJob.FileSystem.Lost

/-! One job that blocks its queue. Where the time of its last attempt and its wait add up to
no `DateTime`, the test of `GetJobs` throws, and with it every fetch from the queue. -/

namespace OddJob.FileSystem

open Akka Linq Transition

variable {CliType Value : Type}

/-- The job is to be tried again, and when cannot be told. -/
def Overflows (q : FileSystemJobMetaData CliType Value) : Prop :=
  q.status = .retry ∧ ∃ parameters lastAttempt thrown, q.retryParameters = some parameters ∧
    parameters.retryCount ≤ parameters.maxRetries ∧ parameters.lastAttempt = some lastAttempt ∧
    add lastAttempt parameters.minRetryWait = .error thrown

theorem selects_of_unnamed {queueNames : List String} {now : Ticks}
    {q : FileSystemJobMetaData CliType Value} (unnamed : q.queueName ∉ queueNames) :
    selects queueNames now q = .ok false := by
  rw [selects, if_neg]
  simp [unnamed]

/-- The test of a job throws where the job overflows, whatever the time. -/
theorem selects_returns_iff {queueNames : List String} {now : Ticks}
    {q : FileSystemJobMetaData CliType Value} :
    (∃ accepted, selects queueNames now q = .ok accepted) ↔
      (q.queueName ∈ queueNames → ¬Overflows q) := by
  by_cases named : q.queueName ∈ queueNames
  · rw [selects, Overflows]
    cases status : q.status <;> cases given : q.retryParameters <;> simp [named]
    rename_i parameters
    by_cases room : parameters.retryCount ≤ parameters.maxRetries
    · cases tried : parameters.lastAttempt with
      | none => simp [room]
      | some lastAttempt =>
        cases sum : add lastAttempt parameters.minRetryWait with
        | ok ready => simpa [room, sum] using le_or_gt now ready
        | error thrown => simp [room, sum]
    · simp [room]
  · exact ⟨fun _ listed => absurd listed named, fun _ => ⟨false, selects_of_unnamed named⟩⟩

theorem getJobs_returns_iff {queueNames : List String} {fetchSize : Int}
    {now queueTime : Nat → Ticks} {serializer : List (FileSystemJobMetaData CliType Value)} :
    (∃ done, getJobs queueNames fetchSize now queueTime serializer = .ok done) ↔
      ∀ q ∈ serializer, q.queueName ∈ queueNames → ¬Overflows q := by
  have filter : (∃ done, getJobs queueNames fetchSize now queueTime serializer = .ok done) ↔
      ∃ kept, whereThrows (fun row => selects queueNames (now row.2) row.1) serializer.zipIdx =
        .ok kept := by
    unfold getJobs fetched
    cases whereThrows (fun row => selects queueNames (now row.2) row.1) serializer.zipIdx with
    | ok kept => exact ⟨fun _ => ⟨kept, rfl⟩, fun _ => ⟨_, rfl⟩⟩
    | error thrown => exact ⟨fun ⟨_, done⟩ => (nomatch done), fun ⟨_, done⟩ => (nomatch done)⟩
  rw [filter, whereThrows_returns_iff]
  constructor
  · intro tested q member
    obtain ⟨place, found⟩ := List.mem_iff_getElem?.mp member
    exact selects_returns_iff.mp (tested (q, place) (List.mk_mem_zipIdx_iff_getElem?.mpr found))
  · intro fit row listed
    refine selects_returns_iff.mpr (fit row.1 ?_)
    have member := List.mem_map_of_mem (f := Prod.fst) listed
    rwa [List.zipIdx_map_fst] at member

namespace Engines

variable {engines after final : Engines CliType Value} {action : EnginesAction CliType Value}
  {q other : FileSystemJobMetaData CliType Value}

private theorem unheld_of_waits (custody : Custody engines) (stored : q ∈ engines.serializer)
    (waits : q.entry.Waits) : ¬engines.Held q.jobId := by
  rintro ⟨index, process, running, listed⟩
  obtain ⟨copy, held, same⟩ := List.mem_map.mp listed
  obtain ⟨e, present, own, _, busy⟩ := custody.known copy (List.mem_flatMap.mpr
    ⟨process, List.mem_of_getElem? (process_of_running running).1, held⟩)
  obtain rfl : q.entry = e :=
    custody.entry_unique (List.mem_map_of_mem stored) present (same.symm.trans own.symm)
  exact busy.rests waits

private theorem waits_of_moves (custody : Custody engines) (overflows : Overflows q)
    (stored : q ∈ engines.serializer) (member : other ∈ engines.serializer)
    (queued : other.queueName = q.queueName) (waits : other.entry.Waits)
    (move : Moves engines action after) : other ∈ after.serializer := by
  cases move with
  | added => exact List.mem_append_left _ member
  | crashed | acted | replied | threw | lost => exact member
  | fetched index process request now queueTime serializer results running free done =>
    by_cases named : q.queueName = request.queueName
    · exact absurd overflows
        (getJobs_returns_iff.mp ⟨_, done⟩ q stored (List.mem_singleton.mpr named))
    · refine getJobs_keeps done member fun now passed => ?_
      rw [selects_of_unnamed (by rwa [List.mem_singleton, queued])] at passed
      cases passed
  | marked index process command rest engine now serializer running front taken done =>
    obtain ⟨job, speaks⟩ := custody.speaks (process_of_running running).1 front taken
    refine writeJobState_keeps done member fun same => unheld_of_waits custody member waits ?_
    exact ⟨index, process, running, List.mem_map.mpr ⟨job, speaks.held, by rw [same, speaks.id]⟩⟩

/-- One job whose wait overflows blocks its queue for ever: every job of the queue that waits
is left as it is and never executed, and the job itself stays there to block what is added. -/
theorem blocked_queue_stays_blocked {settings : List ProcessSettings}
    (reached : Reaches step anyAction (configured settings) engines) (overflows : Overflows q)
    (stored : q ∈ engines.serializer) (later : Reaches step anyAction engines final) :
    q ∈ final.serializer ∧ ∀ other ∈ engines.serializer, other.queueName = q.queueName →
      other.status = .new ∨ other.status = .retry →
      other ∈ final.serializer ∧
        final.executionsOf other.jobId = engines.executionsOf other.jobId := by
  induction later with
  | refl => exact ⟨stored, fun other member _ _ => ⟨member, rfl⟩⟩
  | next earlier _ taken ih =>
    have custody := custody_of_reaches (reached.trans earlier)
    have move := moves_of_step taken
    obtain ⟨there, waiting⟩ := ih
    refine ⟨waits_of_moves custody overflows there there rfl (.inr overflows.1) move,
      fun other member queued waits => ?_⟩
    obtain ⟨here, same⟩ := waiting other member queued waits
    exact ⟨waits_of_moves custody overflows there here queued waits move,
      (executionsOf_of_moves (unheld_of_waits custody here waits) custody move).trans same⟩

/-- One retry, after the longest wait that a `TimeSpan` can tell. -/
def longestWait : RetryParameters where
  maxRetries := 1
  minRetryWait := 9223372036854775807

/-- The first attempt of a job with the longest wait fails, and another job is added. -/
def blockingRun : List (EnginesAction String String) :=
  .addJob sharedJob (some longestWait) none "default" 7 10 ::
    (sharedFetch 0 20 ++ sharedDispatch 0 21 ++ [.act 0 (.workerFinish 0 .threw),
      .act 0 (.receive 0 22 .returned), .command 0 23 true,
      .addJob { sharedJob with jobId := 8 } none none "default" 8 24])

def blockedRun : List (EnginesAction String String) :=
  [.act 1 (.post .jobSweep), .act 1 (.receive 0 0 .returned), .act 1 .layerReceive,
    .fetchThrew 1, .act 1 (.askTimeout .returned)]

theorem blocked_queue_stays_blocked_of_overflow : ∃ engines final : Engines String String,
    execute (fun _ _ => true) step (configured sharedSettings) blockingRun = some engines ∧
    execute (fun _ _ => true) step engines blockedRun = some final ∧
    ∃ other ∈ engines.serializer, other.jobId = 8 ∧ other ∈ final.serializer ∧
      final.executionsOf other.jobId = engines.executionsOf other.jobId := by
  have checked : (execute (fun _ _ => true) step (configured sharedSettings) blockingRun).any
      (fun engines : Engines String String =>
        (execute (fun _ _ => true) step engines blockedRun).isSome ∧
        engines.serializer.map (fun q => (q.jobId, q.queueName, q.status, q.retryParameters)) =
          [(7, "default", .retry, some { longestWait with retryCount := 1, lastAttempt := some 22 }),
            (8, "default", .new, some {})]) = true := by
    decide +kernel
  obtain ⟨engines, run, known⟩ := (Option.any_eq_true _ _).mp checked
  obtain ⟨again, rows⟩ := of_decide_eq_true known
  obtain ⟨final, later⟩ := Option.isSome_iff_exists.mp again
  obtain ⟨q, rest, same, own, others⟩ := List.map_eq_cons_iff.mp rows
  obtain ⟨other, only, id⟩ := List.map_eq_singleton_iff.mp others
  simp only [Prod.mk.injEq] at own id
  obtain ⟨_, queue, retry, parameters⟩ := own
  obtain ⟨guid, queued, new, _⟩ := id
  have listed : other ∈ engines.serializer := by simp [same, only]
  obtain ⟨_, waiting⟩ := blocked_queue_stays_blocked
    (reaches_of_execute (fun _ _ _ => trivial) run)
    ⟨retry, _, 22, .argumentOutOfRange, parameters, by decide, rfl, by decide⟩
    (same ▸ List.mem_cons_self : q ∈ engines.serializer)
    (reaches_of_execute (fun _ _ _ => trivial) later)
  exact ⟨engines, final, run, later, other, listed, guid,
    waiting other listed (queued.trans queue.symm) (.inl new)⟩

end Engines

end OddJob.FileSystem
