import OddJob.Creator
import OddJob.Lib.Pointwise

/-! The queue that is kept in one file: `FileSystemJobQueueAdder` and
`FileSystemJobQueueManager`, as what each operation makes of the list in the file. -/

namespace OddJob.FileSystem

open Linq

structure FileSystemJobMetaData (CliType Value : Type) where
  retryParameters : Option RetryParameters
  jobId : Guid
  jobArgs : List (OddJobParameter Value)
  typeExecutedOn : CliType
  methodName : String
  queueName : String
  createdOn : Ticks
  status : JobStates
  methodGenericTypes : List CliType
  queueTime : Ticks := 0
  failureTime : Ticks := 0
  lastAttemptTime : Ticks := 0
  executionTime : Option Ticks := none
  queue : Option String := none
  deriving DecidableEq

/-- The members that the store itself reads. -/
structure Entry where
  jobId : Guid
  queueName : String
  status : JobStates
  createdOn : Ticks
  retryParameters : Option RetryParameters
  deriving DecidableEq, Repr

variable {CliType Value : Type}

def FileSystemJobMetaData.entry (q : FileSystemJobMetaData CliType Value) : Entry where
  jobId := q.jobId
  queueName := q.queueName
  status := q.status
  createdOn := q.createdOn
  retryParameters := q.retryParameters

/-- The ticks of `DateTime.MaxValue`. -/
def maxValue : Ticks := 3155378975999999999

/-- `DateTime.Add` -/
def add (time : Ticks) (value : Ticks) : Except ClrException Ticks :=
  if 0 ≤ time + value ∧ time + value ≤ maxValue then .ok (time + value)
  else .error .argumentOutOfRange

/-- The `Where` of `GetJobs`. -/
def selects (queueNames : List String) (now : Ticks) (q : FileSystemJobMetaData CliType Value) :
    Except ClrException Bool :=
  if queueNames.contains q.queueName && (q.status = .new || q.status = .retry) then
    match q.retryParameters with
    | none => .ok true
    | some parameters =>
      if q.status = .new then .ok true
      else if parameters.retryCount ≤ parameters.maxRetries then
        match parameters.lastAttempt with
        | none => .ok true
        | some lastAttempt => do
          let ready ← add lastAttempt parameters.minRetryWait
          return ready < now
      else .ok false
  else .ok false

/-- The `OrderBy` of `GetJobs`, which has no use for the order the caller asks for. -/
def priority (q : FileSystemJobMetaData CliType Value) : Ticks :=
  min q.createdOn ((q.retryParameters.bind RetryParameters.lastAttempt).getD maxValue)

def queued (now : Ticks) (q : FileSystemJobMetaData CliType Value) :
    FileSystemJobMetaData CliType Value :=
  { q with status := .other "Queued", queueTime := now }

/-- The rows a `GetJobs` takes, with their places in the list. -/
def fetched (queueNames : List String) (fetchSize : Int) (now : Nat → Ticks)
    (serializer : List (FileSystemJobMetaData CliType Value)) :
    Except ClrException (List (FileSystemJobMetaData CliType Value × Nat)) := do
  let filtered ← whereThrows (fun row => selects queueNames (now row.2) row.1) serializer.zipIdx
  return (orderBy (fun row => priority row.1) filtered).take fetchSize.toNat

/-- `GetJobs` on the list in the file. The clock is read for every job that is tested and
again for every job that is taken. -/
def getJobs (queueNames : List String) (fetchSize : Int) (now queueTime : Nat → Ticks)
    (serializer : List (FileSystemJobMetaData CliType Value)) :
    Except ClrException (List (FileSystemJobMetaData CliType Value) ×
      List (FileSystemJobMetaData CliType Value)) := do
  let filtered ← fetched queueNames fetchSize now serializer
  return (serializer.zipIdx.map fun row =>
      if filtered.any fun item => item.2 = row.2 then queued (queueTime row.2) row.1 else row.1,
    filtered.map fun row => queued (queueTime row.2) row.1)

/-- `int` addition without a check for overflow. -/
def increment (count : Int) : Int := if count = 2147483647 then -2147483648 else count + 1

/-- What the four marks hand to `WriteJobState`. -/
def transformFunc (mark : Mark) (now : Ticks) (q : FileSystemJobMetaData CliType Value) :
    Except ClrException (FileSystemJobMetaData CliType Value) :=
  match mark with
  | .markJobFailed => .ok { q with status := .failed, failureTime := now }
  | .markJobInProgress => .ok { q with status := .other "In-Progress", lastAttemptTime := now }
  | .markJobSuccess => .ok { q with status := .processed, lastAttemptTime := now }
  | .markJobInRetryAndIncrement lastAttempt =>
    match q.retryParameters with
    | none => .error .nullReference
    | some parameters => .ok { q with
        status := .retry
        retryParameters := some { parameters with
          lastAttempt := some lastAttempt
          retryCount := increment parameters.retryCount } }

/-- `WriteJobState` on the list in the file: the first job with the id is transformed. -/
def writeJobState (jobId : Guid) (transform : FileSystemJobMetaData CliType Value →
      Except ClrException (FileSystemJobMetaData CliType Value)) :
    List (FileSystemJobMetaData CliType Value) →
      Except ClrException (List (FileSystemJobMetaData CliType Value))
  | [] => .ok []
  | q :: rest =>
    if q.jobId = jobId then (transform q).map (· :: rest)
    else (writeJobState jobId transform rest).map (q :: ·)

inductive Operation (CliType Value : Type) where
  | writeJobToQueue (data : FileSystemJobMetaData CliType Value)
  | getJobs (queueNames : List String) (fetchSize : Int) (now queueTime : Nat → Ticks)
  | getJob (jobId : Guid)
  | mark (mark : Mark) (jobId : Guid) (now : Ticks)

/-- `AddJob`; the time at which the job is to be executed is not written anywhere. -/
def addJob (jobData : OddJob CliType Value) (retryParameters : Option RetryParameters)
    (_executionTime : Option Ticks) (queueName : String) (jobId : Guid) (now : Ticks) :
    Operation CliType Value :=
  .writeJobToQueue {
    jobId
    jobArgs := jobData.jobArgs
    methodName := jobData.methodName
    retryParameters := some (retryParameters.getD {})
    typeExecutedOn := jobData.typeExecutedOn
    queueName
    createdOn := now
    status := .new
    methodGenericTypes := jobData.methodGenericTypes }

namespace Operation

/-- The list that an operation leaves, and the jobs that it returns. -/
def run (operation : Operation CliType Value)
    (serializer : List (FileSystemJobMetaData CliType Value)) :
    Except ClrException (List (FileSystemJobMetaData CliType Value) ×
      List (FileSystemJobMetaData CliType Value)) :=
  match operation with
  | .writeJobToQueue data => .ok (serializer ++ [data], [])
  | .getJobs queueNames fetchSize now queueTime =>
    FileSystem.getJobs queueNames fetchSize now queueTime serializer
  | .getJob jobId => .ok (serializer, (serializer.find? fun q => q.jobId = jobId).toList)
  | .mark kind jobId now => do
    let serializer ← writeJobState jobId (transformFunc kind now) serializer
    return (serializer, [])

/-- `GetJob` closes the file as it found it. -/
def writes : Operation CliType Value → Bool
  | .getJob _ => false
  | _ => true

def fetches : Operation CliType Value → Bool
  | .getJobs .. => true
  | _ => false

/-- The entry that an operation adds. -/
def added : Operation CliType Value → Option Entry
  | .writeJobToQueue data => some data.entry
  | _ => none

end Operation

/-- What a mark does to the members that the store reads. -/
def Entry.marked (mark : Mark) (e : Entry) : Entry :=
  match mark with
  | .markJobFailed => { e with status := .failed }
  | .markJobInProgress => { e with status := .other "In-Progress" }
  | .markJobSuccess => { e with status := .processed }
  | .markJobInRetryAndIncrement lastAttempt => { e with
      status := .retry
      retryParameters := e.retryParameters.map fun parameters => { parameters with
        lastAttempt := some lastAttempt
        retryCount := increment parameters.retryCount } }

/-- What an operation that returned the jobs with these ids does to one entry. -/
def Entry.after (operation : Operation CliType Value) (returned : List Guid) (e : Entry) : Entry :=
  match operation with
  | .getJobs .. => if e.jobId ∈ returned then { e with status := .other "Queued" } else e
  | .mark kind jobId _ => if e.jobId = jobId then e.marked kind else e
  | .writeJobToQueue _ | .getJob _ => e

@[simp] theorem Entry.marked_jobId (mark : Mark) (e : Entry) :
    (e.marked mark).jobId = e.jobId := by
  cases mark <;> rfl

@[simp] theorem Entry.after_jobId (operation : Operation CliType Value) (returned : List Guid)
    (e : Entry) : (e.after operation returned).jobId = e.jobId := by
  unfold Entry.after
  split
  · split <;> rfl
  · split
    · exact e.marked_jobId _
    · rfl
  · rfl
  · rfl

section Run

variable {serializer after results : List (FileSystemJobMetaData CliType Value)}
  {filtered : List (FileSystemJobMetaData CliType Value × Nat)}
  {queueNames : List String} {fetchSize : Int} {now queueTime : Nat → Ticks}

theorem waiting_of_selects {now : Ticks} {q : FileSystemJobMetaData CliType Value}
    (passed : selects queueNames now q = .ok true) : q.status = .new ∨ q.status = .retry := by
  unfold selects at passed
  split at passed
  · rename_i tested
    simp only [Bool.and_eq_true, Bool.or_eq_true, decide_eq_true_eq] at tested
    exact tested.2
  · cases passed

theorem fetched_eq_ok (done : fetched queueNames fetchSize now serializer = .ok filtered) :
    ∃ kept, whereThrows (fun row => selects queueNames (now row.2) row.1) serializer.zipIdx =
        .ok kept ∧ filtered = (orderBy (fun row => priority row.1) kept).take fetchSize.toNat := by
  unfold fetched at done
  cases tested : whereThrows (fun row => selects queueNames (now row.2) row.1) serializer.zipIdx with
  | error thrown => rw [tested] at done; cases done
  | ok kept =>
    rw [tested] at done
    cases done
    exact ⟨kept, rfl, rfl⟩

/-- What is taken are rows of the list that wait, each once. -/
theorem fetched_rows (done : fetched queueNames fetchSize now serializer = .ok filtered) :
    filtered.Subperm serializer.zipIdx ∧
      ∀ row ∈ filtered, row.1.status = .new ∨ row.1.status = .retry := by
  obtain ⟨kept, tested, rfl⟩ := fetched_eq_ok done
  constructor
  · refine (List.take_sublist _ _).subperm.trans ?_
    exact (orderBy_perm _ kept).subperm.trans (whereThrows_sublist tested).subperm
  · intro row member
    have passed := passes_of_mem_whereThrows tested (mem_orderBy.mp (List.mem_of_mem_take member))
    exact waiting_of_selects passed

theorem getJobs_eq_ok
    (done : getJobs queueNames fetchSize now queueTime serializer = .ok (after, results)) :
    ∃ filtered, fetched queueNames fetchSize now serializer = .ok filtered ∧
      after = (serializer.zipIdx.map fun row =>
        if filtered.any fun item => item.2 = row.2 then queued (queueTime row.2) row.1
        else row.1) ∧
      results = filtered.map fun row => queued (queueTime row.2) row.1 := by
  unfold getJobs at done
  cases taken : fetched queueNames fetchSize now serializer with
  | error thrown => rw [taken] at done; cases done
  | ok filtered =>
    rw [taken] at done
    cases done
    exact ⟨filtered, rfl, rfl, rfl⟩

end Run

/-- Rows that differ in no member that the store reads. -/
def SameEntry (q q' : FileSystemJobMetaData CliType Value) : Prop := q.entry = q'.entry

theorem forall₂_sameEntry {rows rows' : List (FileSystemJobMetaData CliType Value)} :
    List.Forall₂ SameEntry rows rows' ↔
      rows.map FileSystemJobMetaData.entry = rows'.map FileSystemJobMetaData.entry := by
  rw [← List.forall₂_eq_eq_eq, List.forall₂_map_left_iff, List.forall₂_map_right_iff]
  rfl

section Same

variable {q q' : FileSystemJobMetaData CliType Value}
  {serializer serializer' after results : List (FileSystemJobMetaData CliType Value)}

theorem SameEntry.jobId (same : SameEntry q q') : q.jobId = q'.jobId :=
  congrArg Entry.jobId same

theorem SameEntry.selects (same : SameEntry q q') (queueNames : List String) (now : Ticks) :
    selects queueNames now q = selects queueNames now q' := by
  have queueName : q.queueName = q'.queueName := congrArg Entry.queueName same
  have status : q.status = q'.status := congrArg Entry.status same
  have retryParameters : q.retryParameters = q'.retryParameters :=
    congrArg Entry.retryParameters same
  simp only [FileSystem.selects, queueName, status, retryParameters]

theorem SameEntry.priority (same : SameEntry q q') : priority q = priority q' := by
  have createdOn : q.createdOn = q'.createdOn := congrArg Entry.createdOn same
  have retryParameters : q.retryParameters = q'.retryParameters :=
    congrArg Entry.retryParameters same
  simp only [FileSystem.priority, createdOn, retryParameters]

theorem entry_queued (now : Ticks) (q : FileSystemJobMetaData CliType Value) :
    (queued now q).entry = { q.entry with status := .other "Queued" } := rfl

theorem SameEntry.queued (same : SameEntry q q') (now now' : Ticks) :
    SameEntry (queued now q) (queued now' q') := by
  rw [SameEntry, entry_queued, entry_queued, same]

theorem entry_transformFunc {mark : Mark} {now : Ticks}
    (done : transformFunc mark now q = .ok q') : q'.entry = q.entry.marked mark := by
  cases mark with
  | markJobInRetryAndIncrement lastAttempt =>
    simp only [transformFunc] at done
    cases present : q.retryParameters with
    | none => simp [present] at done
    | some parameters =>
      simp only [present, Except.ok.injEq] at done
      simp [← done, FileSystemJobMetaData.entry, Entry.marked, present]
  | _ =>
    cases done
    rfl

theorem SameEntry.transformFunc {mark : Mark} {now : Ticks}
    {set : FileSystemJobMetaData CliType Value} (same : SameEntry q q')
    (done : transformFunc mark now q = .ok set) :
    ∃ set', FileSystem.transformFunc mark now q' = .ok set' ∧ SameEntry set set' := by
  suffices also : ∃ set', FileSystem.transformFunc mark now q' = .ok set' by
    obtain ⟨set', done'⟩ := also
    refine ⟨set', done', ?_⟩
    rw [SameEntry, entry_transformFunc done, entry_transformFunc done', same]
  cases mark with
  | markJobInRetryAndIncrement lastAttempt =>
    have retryParameters : q.retryParameters = q'.retryParameters :=
      congrArg Entry.retryParameters same
    simp only [FileSystem.transformFunc, retryParameters] at done ⊢
    cases present : q'.retryParameters with
    | none => simp [present] at done
    | some parameters => exact ⟨_, rfl⟩
  | _ => exact ⟨_, rfl⟩

theorem map_eq_ok {Thrown First Second : Type} {f : First → Second}
    {result : Except Thrown First} {value : Second} (done : result.map f = .ok value) :
    ∃ first, result = .ok first ∧ value = f first := by
  cases result with
  | error thrown => cases done
  | ok first =>
    cases done
    exact ⟨first, rfl, rfl⟩

theorem forall₂_writeJobState {jobId : Guid} {mark : Mark} {now : Ticks}
    (rowwise : List.Forall₂ SameEntry serializer serializer')
    (done : writeJobState jobId (transformFunc mark now) serializer = .ok after) :
    ∃ after', writeJobState jobId (transformFunc mark now) serializer' = .ok after' ∧
      List.Forall₂ SameEntry after after' := by
  induction rowwise generalizing after with
  | nil =>
    cases done
    exact ⟨[], rfl, .nil⟩
  | @cons q q' rest rest' first more ih =>
    unfold writeJobState at done ⊢
    rw [← first.jobId]
    split at done
    · rename_i own
      obtain ⟨set, transformed, rfl⟩ := map_eq_ok done
      obtain ⟨set', transformed', same⟩ := first.transformFunc transformed
      rw [if_pos own, transformed']
      exact ⟨set' :: rest', rfl, .cons same more⟩
    · rename_i foreign
      obtain ⟨later, rested, rfl⟩ := map_eq_ok done
      obtain ⟨later', rested', same⟩ := ih rested
      rw [if_neg foreign, rested']
      exact ⟨q' :: later', rfl, .cons first same⟩

theorem forall₂_fetched {queueNames : List String} {fetchSize : Int} {now : Nat → Ticks}
    {filtered : List (FileSystemJobMetaData CliType Value × Nat)}
    (rowwise : List.Forall₂ SameEntry serializer serializer')
    (done : fetched queueNames fetchSize now serializer = .ok filtered) :
    ∃ filtered', fetched queueNames fetchSize now serializer' = .ok filtered' ∧
      List.Forall₂ (fun row row' => SameEntry row.1 row'.1 ∧ row.2 = row'.2) filtered filtered' := by
  obtain ⟨kept, tested, rfl⟩ := fetched_eq_ok done
  obtain ⟨kept', tested', same⟩ : ∃ kept',
      whereThrows (fun row => selects queueNames (now row.2) row.1) serializer'.zipIdx =
        .ok kept' ∧
      List.Forall₂ (fun row row' => SameEntry row.1 row'.1 ∧ row.2 = row'.2) kept kept' := by
    apply forall₂_whereThrows (forall₂_zipIdx rowwise 0) _ tested
    intro row row' both
    rw [both.1.selects, both.2]
  refine ⟨(orderBy (fun row => priority row.1) kept').take fetchSize.toNat, ?_, ?_⟩
  · rw [fetched, tested']
    rfl
  · exact List.forall₂_take _ (forall₂_orderBy same fun row row' both => both.1.priority)

theorem forall₂_getJobs {queueNames : List String} {fetchSize : Int} {now queueTime : Nat → Ticks}
    (rowwise : List.Forall₂ SameEntry serializer serializer')
    (done : getJobs queueNames fetchSize now queueTime serializer = .ok (after, results)) :
    ∃ after' results', getJobs queueNames fetchSize now queueTime serializer' =
        .ok (after', results') ∧
      List.Forall₂ SameEntry after after' ∧ List.Forall₂ SameEntry results results' := by
  obtain ⟨filtered, taken, rfl, rfl⟩ := getJobs_eq_ok done
  obtain ⟨filtered', taken', same⟩ := forall₂_fetched rowwise taken
  have places : filtered.map Prod.snd = filtered'.map Prod.snd := by
    rw [← List.forall₂_eq_eq_eq, List.forall₂_map_left_iff, List.forall₂_map_right_iff]
    exact same.imp fun _ _ both => both.2
  have chosen (place : Nat) : (filtered.any fun item => item.2 = place) =
      filtered'.any fun item => item.2 = place := by
    have named := congrArg (fun all => all.any fun other => decide (other = place)) places
    simpa only [List.any_map, Function.comp_def] using named
  rw [getJobs, taken']
  refine ⟨_, _, rfl, ?_, ?_⟩
  · rw [List.forall₂_map_left_iff, List.forall₂_map_right_iff]
    refine (forall₂_zipIdx rowwise 0).imp fun row row' both => ?_
    rw [chosen, both.2]
    split
    · exact both.1.queued _ _
    · exact both.1
  · rw [List.forall₂_map_left_iff, List.forall₂_map_right_iff]
    exact same.imp fun row row' both => both.1.queued _ _

theorem forall₂_find? {jobId : Guid} (rowwise : List.Forall₂ SameEntry serializer serializer') :
    List.Forall₂ SameEntry (serializer.find? fun q => q.jobId = jobId).toList
      (serializer'.find? fun q => q.jobId = jobId).toList := by
  induction rowwise with
  | nil => exact .nil
  | @cons q q' rest rest' first _ ih =>
    rw [List.find?_cons, List.find?_cons, first.jobId]
    split
    · exact .cons first .nil
    · exact ih

theorem Operation.forall₂_run {operation : Operation CliType Value}
    (rowwise : List.Forall₂ SameEntry serializer serializer')
    (done : operation.run serializer = .ok (after, results)) :
    ∃ after' results', operation.run serializer' = .ok (after', results') ∧
      List.Forall₂ SameEntry after after' ∧ List.Forall₂ SameEntry results results' := by
  cases operation with
  | writeJobToQueue data =>
    cases done
    exact ⟨_, _, rfl, List.rel_append rowwise (.cons rfl .nil), .nil⟩
  | getJobs queueNames fetchSize now queueTime => exact forall₂_getJobs rowwise done
  | getJob jobId =>
    cases done
    exact ⟨_, _, rfl, rowwise, forall₂_find? rowwise⟩
  | mark kind jobId now =>
    simp only [run] at done ⊢
    cases written : writeJobState jobId (transformFunc kind now) serializer with
    | error thrown => rw [written] at done; cases done
    | ok set =>
      rw [written] at done
      cases done
      obtain ⟨set', written', same⟩ := forall₂_writeJobState rowwise written
      rw [written']
      exact ⟨set', [], rfl, same, .nil⟩

end Same

section Entries

variable {serializer after results : List (FileSystemJobMetaData CliType Value)}

private theorem map_zipIdx {Result : Type} (f : FileSystemJobMetaData CliType Value → Result)
    (serializer : List (FileSystemJobMetaData CliType Value)) :
    serializer.zipIdx.map (fun row => f row.1) = serializer.map f := by
  have fst : serializer.zipIdx.map Prod.fst = serializer := List.zipIdx_map_fst 0 serializer
  calc serializer.zipIdx.map (fun row => f row.1)
      = (serializer.zipIdx.map Prod.fst).map f := by rw [List.map_map]; rfl
    _ = serializer.map f := by rw [fst]

theorem entries_getJobs {queueNames : List String} {fetchSize : Int} {now queueTime : Nat → Ticks}
    (distinct : (serializer.map FileSystemJobMetaData.jobId).Nodup)
    (done : getJobs queueNames fetchSize now queueTime serializer = .ok (after, results)) :
    after.map FileSystemJobMetaData.entry = serializer.map fun q =>
      if q.jobId ∈ results.map FileSystemJobMetaData.jobId then
        { q.entry with status := .other "Queued" }
      else q.entry := by
  obtain ⟨filtered, taken, rfl, rfl⟩ := getJobs_eq_ok done
  have rows := (fetched_rows taken).1.subset
  have places : (serializer.zipIdx.map Prod.snd).Nodup := by
    rw [List.zipIdx_map_snd]
    exact List.nodup_range'
  have ids : (serializer.zipIdx.map fun row => row.1.jobId).Nodup :=
    (map_zipIdx FileSystemJobMetaData.jobId serializer).symm ▸ distinct
  rw [List.map_map]
  refine Eq.trans ?_ (map_zipIdx _ serializer)
  apply List.map_congr_left
  intro row member
  -- a row of the list is known by its place as well as by its id
  have chosen : (filtered.any fun item => item.2 = row.2) = true ↔
      row.1.jobId ∈ (filtered.map fun row => queued (queueTime row.2) row.1).map
        FileSystemJobMetaData.jobId := by
    rw [List.any_eq_true, List.map_map, List.mem_map]
    constructor
    · rintro ⟨item, found, place⟩
      obtain rfl : item = row :=
        List.inj_on_of_nodup_map places (rows found) member (of_decide_eq_true place)
      exact ⟨item, found, rfl⟩
    · rintro ⟨item, found, id⟩
      obtain rfl : item = row := List.inj_on_of_nodup_map ids (rows found) member id
      exact ⟨item, found, decide_eq_true rfl⟩
  simp only [Function.comp_apply, chosen]
  split <;> rfl

/-- A `GetJobs` returns jobs of the list that wait, each once. -/
theorem returned_getJobs {queueNames : List String} {fetchSize : Int} {now queueTime : Nat → Ticks}
    (distinct : (serializer.map FileSystemJobMetaData.jobId).Nodup)
    (done : getJobs queueNames fetchSize now queueTime serializer = .ok (after, results)) :
    (results.map FileSystemJobMetaData.jobId).Nodup ∧
      ∀ jobId ∈ results.map FileSystemJobMetaData.jobId, ∃ q ∈ serializer, q.jobId = jobId ∧
        (q.status = .new ∨ q.status = .retry) := by
  obtain ⟨filtered, taken, rfl, rfl⟩ := getJobs_eq_ok done
  obtain ⟨rows, waiting⟩ := fetched_rows taken
  have ids : (filtered.map fun row => queued (queueTime row.2) row.1).map
      FileSystemJobMetaData.jobId = filtered.map fun row => row.1.jobId := by
    rw [List.map_map]
    rfl
  rw [ids]
  constructor
  · obtain ⟨some, permuted, kept⟩ := rows
    rw [← map_zipIdx] at distinct
    exact (permuted.map fun row => row.1.jobId).nodup_iff.mp (distinct.sublist (kept.map _))
  · intro jobId member
    obtain ⟨row, found, rfl⟩ := List.mem_map.mp member
    have present : row.1 ∈ serializer.zipIdx.map Prod.fst := List.mem_map_of_mem (rows.subset found)
    rw [List.zipIdx_map_fst] at present
    exact ⟨row.1, present, rfl, waiting row found⟩

theorem entries_writeJobState {jobId : Guid} {mark : Mark} {now : Ticks}
    (distinct : (serializer.map FileSystemJobMetaData.jobId).Nodup)
    (done : writeJobState jobId (transformFunc mark now) serializer = .ok after) :
    after.map FileSystemJobMetaData.entry = serializer.map fun q =>
      if q.jobId = jobId then q.entry.marked mark else q.entry := by
  induction serializer generalizing after with
  | nil =>
    cases done
    rfl
  | cons q rest ih =>
    obtain ⟨foreign, others⟩ := List.nodup_cons.mp distinct
    unfold writeJobState at done
    split at done
    · rename_i own
      obtain ⟨set, transformed, rfl⟩ := map_eq_ok done
      rw [List.map_cons, List.map_cons, if_pos own, entry_transformFunc transformed]
      -- the ids are distinct, so no later job has this one
      congr 1
      apply List.map_congr_left
      intro other member
      rw [if_neg]
      rintro same
      exact foreign (List.mem_map.mpr ⟨other, member, same.trans own.symm⟩)
    · rename_i different
      obtain ⟨later, rested, rfl⟩ := map_eq_ok done
      rw [List.map_cons, List.map_cons, if_neg different, ih others rested]

/-- An operation rewrites entries one by one and adds its own at the end. -/
theorem Operation.entries_run {operation : Operation CliType Value}
    (distinct : (serializer.map FileSystemJobMetaData.jobId).Nodup)
    (done : operation.run serializer = .ok (after, results)) :
    after.map FileSystemJobMetaData.entry =
      (serializer.map fun q =>
        q.entry.after operation (results.map FileSystemJobMetaData.jobId)) ++
      operation.added.toList := by
  cases operation with
  | writeJobToQueue data =>
    cases done
    rw [List.map_append]
    rfl
  | getJobs queueNames fetchSize now queueTime =>
    rw [entries_getJobs distinct done]
    exact (List.append_nil _).symm
  | getJob jobId =>
    cases done
    exact (List.append_nil _).symm
  | mark kind jobId now =>
    simp only [run] at done
    cases written : writeJobState jobId (transformFunc kind now) serializer with
    | error thrown => rw [written] at done; cases done
    | ok set =>
      rw [written] at done
      cases done
      rw [entries_writeJobState distinct written]
      exact (List.append_nil _).symm

end Entries

end OddJob.FileSystem
