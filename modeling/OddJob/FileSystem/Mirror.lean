import OddJob.FileSystem.Store
import OddJob.Sql.Fetch

/-! The list in a file beside the rows of a table: when they are about the same jobs, and
when a fetch takes the same jobs of both. -/

namespace OddJob.FileSystem

open Linq Sql

variable {Key CliType Value : Type} [LinearOrder Key]

/-- An entry waits to be fetched. -/
def Entry.Waits (e : Entry) : Prop := e.status = .new ∨ e.status = .retry

instance (e : Entry) : Decidable e.Waits := inferInstanceAs (Decidable (_ ∨ _))

/-- The two stores are as far with a job. A job that SQL has claimed still waits there, and
only the claim keeps it from the next fetch. -/
structure Mirror (e : Entry) (row : SqlCommonDbOddJobMetaData) : Prop where
  jobId : e.jobId = row.jobGuid
  queueName : e.queueName = row.queueName
  parameters : e.retryParameters.isSome = true
  waits : e.Waits → row.status = e.status ∧ row.lockClaimTime = none
  rests : ¬e.Waits → (row.status ≠ .new ∧ row.status ≠ .retry) ∨ row.lockClaimTime ≠ none

section Keep

variable {e : Entry} {row : SqlCommonDbOddJobMetaData}

theorem mirror_added (jobData : OddJob CliType Value) (retryParameters : Option RetryParameters)
    (executionTime : Option Ticks) (wire : SerializableOddJob) (id : Int) (now : Ticks) :
    ∀ e ∈ (addJob jobData retryParameters executionTime wire.queueName wire.jobId now).added,
      Mirror e (publishedRow wire id now) := by
  rintro e ⟨⟩
  constructor
  · rfl
  · rfl
  · rfl
  · exact fun _ => ⟨rfl, rfl⟩
  · exact fun rests => absurd (.inl rfl) rests

theorem Mirror.marked (mirror : Mirror e row) (mark : Mark) (now : Ticks) :
    Mirror (e.marked mark) (mark.set now row) := by
  constructor
  · rw [e.marked_jobId, mark.set_jobGuid]
    exact mirror.jobId
  · cases mark <;> exact mirror.queueName
  · cases mark with
    | markJobInRetryAndIncrement lastAttempt =>
      obtain ⟨parameters, present⟩ := Option.isSome_iff_exists.mp mirror.parameters
      simp [Entry.marked, present]
    | _ => exact mirror.parameters
  · intro waits
    refine ⟨?_, mark.set_lockClaimTime now row⟩
    cases mark with
    | markJobInRetryAndIncrement lastAttempt => rfl
    | _ => simp [Entry.Waits, Entry.marked] at waits
  · intro rests
    cases mark with
    | markJobInRetryAndIncrement lastAttempt => exact absurd (.inr rfl) rests
    | _ => simp [Mark.set]

omit [LinearOrder Key] in
theorem Mirror.claimed (mirror : Mirror e row) (claim : Claim Key) :
    Mirror { e with status := .other "Queued" } (claim.lock row) where
  jobId := mirror.jobId
  queueName := mirror.queueName
  parameters := mirror.parameters
  waits waits := by simp [Entry.Waits] at waits
  rests _ := .inr (Option.some_ne_none _)

end Keep

/-- A job in the file with its place, beside its row. -/
abbrev Pair (CliType Value : Type) :=
  (FileSystemJobMetaData CliType Value × Nat) × SqlCommonDbOddJobMetaData

def paired (stored : List (FileSystemJobMetaData CliType Value))
    (queue : List SqlCommonDbOddJobMetaData) : List (Pair CliType Value) :=
  stored.zipIdx.zip queue

/-- The execution time of a row and its wait for the next attempt are over. -/
def ready (now : Ticks) (row : SqlCommonDbOddJobMetaData) : Bool :=
  row.doNotExecuteBefore.all (· ≤ now) && row.retryCount ≤ row.maxRetries &&
    row.lastAttempt.any fun lastAttempt => lastAttempt + row.minRetryWait * ticksPerSecond ≤ now

/-- Where the file system tests a waiting job of one of the queues, the test comes out as it
does in SQL: no job is kept back there by its execution time, and for another attempt it is
early or late in both. -/
structure SameTests (claim : Claim Key) (pairs : List (Pair CliType Value)) : Prop where
  due : ∀ pair ∈ pairs, pair.1.1.queueName ∈ claim.queueNames → pair.1.1.status = .new →
    ∀ date ∈ pair.2.doNotExecuteBefore, date ≤ claim.lockTime
  rested : ∀ pair ∈ pairs, pair.1.1.queueName ∈ claim.queueNames → pair.1.1.status = .retry →
    selects claim.queueNames claim.lockTime pair.1.1 = .ok (ready claim.lockTime pair.2)

/-- The order of the file system: the older of creation and last attempt, and then the place. -/
def fileOrder (pair : Pair CliType Value) : Ticks ×ₗ Nat := toLex (priority pair.1.1, pair.1.2)

/-- Where the batch is cut off, the file system's order puts no job in front of another that
comes first in the order that was asked for. -/
def SameOrder (claim : Claim Key) (pairs : List (Pair CliType Value)) : Prop :=
  AgreesAtLimit fileOrder (fun pair => claim.priority pair.2) claim.fetchSize
    (pairs.filter fun pair => claim.Eligible pair.2)

/-- No claim has reached its lock timeout. -/
def Unexpired (claim : Claim Key) (queue : List SqlCommonDbOddJobMetaData) : Prop :=
  ∀ row ∈ queue, ∀ date ∈ row.lockClaimTime, claim.lockClaimTimeoutThreshold ≤ date

/-- The order that was asked for has no ties. -/
def Untied (claim : Claim Key) (queue : List SqlCommonDbOddJobMetaData) : Prop :=
  ∀ row ∈ queue, ∀ other ∈ queue, claim.priority row = claim.priority other → row = other

section Decide

variable (claim : Claim Key) (queue : List SqlCommonDbOddJobMetaData)
  (pairs : List (Pair CliType Value))

omit [LinearOrder Key] in
instance : Decidable (SameTests claim pairs) :=
  decidable_of_iff ((∀ pair ∈ pairs, pair.1.1.queueName ∈ claim.queueNames →
      pair.1.1.status = .new → ∀ date ∈ pair.2.doNotExecuteBefore, date ≤ claim.lockTime) ∧
    ∀ pair ∈ pairs, pair.1.1.queueName ∈ claim.queueNames → pair.1.1.status = .retry →
      selects claim.queueNames claim.lockTime pair.1.1 = .ok (ready claim.lockTime pair.2))
    ⟨fun ⟨due, rested⟩ => ⟨due, rested⟩, fun same => ⟨same.due, same.rested⟩⟩

instance : Decidable (SameOrder claim pairs) :=
  inferInstanceAs (Decidable (∀ taken ∈ _, ∀ left ∈ _, _ → _ → _ ≤ _))

omit [LinearOrder Key] in
instance : Decidable (Unexpired claim queue) :=
  inferInstanceAs (Decidable (∀ row ∈ queue, ∀ date ∈ row.lockClaimTime, _ ≤ _))

instance : Decidable (Untied claim queue) :=
  inferInstanceAs (Decidable (∀ row ∈ queue, ∀ other ∈ queue, _ → _))

end Decide

section Fetch

variable {claim : Claim Key} {stored : List (FileSystemJobMetaData CliType Value)}
  {queue : List SqlCommonDbOddJobMetaData} {q : FileSystemJobMetaData CliType Value}
  {row : SqlCommonDbOddJobMetaData}

omit [LinearOrder Key] in
private theorem not_eligible_of_rests (mirror : Mirror q.entry row)
    (unexpired : ∀ date ∈ row.lockClaimTime, claim.lockClaimTimeoutThreshold ≤ date)
    (rests : ¬q.entry.Waits) : ¬claim.Eligible row := by
  intro eligible
  rcases mirror.rests rests with ⟨notNew, notRetry⟩ | claimed
  · rcases eligible.waiting with new | ⟨retry, _⟩
    · exact notNew new
    · exact notRetry retry
  · obtain ⟨date, locked⟩ := Option.ne_none_iff_exists'.mp claimed
    exact absurd (eligible.free date locked) (not_lt.mpr (unexpired date locked))

omit [LinearOrder Key] in
theorem selects_eq_eligible (mirror : Mirror q.entry row)
    (unexpired : ∀ date ∈ row.lockClaimTime, claim.lockClaimTimeoutThreshold ≤ date)
    (due : q.queueName ∈ claim.queueNames → q.status = .new →
      ∀ date ∈ row.doNotExecuteBefore, date ≤ claim.lockTime)
    (rested : q.queueName ∈ claim.queueNames → q.status = .retry →
      selects claim.queueNames claim.lockTime q = .ok (ready claim.lockTime row)) :
    selects claim.queueNames claim.lockTime q = .ok (decide (claim.Eligible row)) := by
  have queueName : q.queueName = row.queueName := mirror.queueName
  by_cases named : q.queueName ∈ claim.queueNames
  · by_cases waits : q.entry.Waits
    · obtain ⟨status, unlocked⟩ := mirror.waits waits
      have free : ∀ date ∈ row.lockClaimTime, date < claim.lockClaimTimeoutThreshold := by
        rw [unlocked]
        rintro _ ⟨⟩
      rcases waits with new | retry
      · have eligible : claim.Eligible row := {
          named := queueName ▸ named
          due := due named new
          waiting := .inl (status.trans new)
          free }
        have present : q.retryParameters.isSome = true := mirror.parameters
        obtain ⟨parameters, same⟩ := Option.isSome_iff_exists.mp present
        have status : q.status = .new := new
        simp [selects, named, status, same, eligible]
      · rw [rested named retry]
        congr 1
        rw [Bool.eq_iff_iff, decide_eq_true_eq, ready]
        simp only [Bool.and_eq_true, decide_eq_true_eq, Option.all_eq_true, Option.any_eq_true]
        constructor
        · rintro ⟨⟨due, count⟩, last⟩
          exact {
            named := queueName ▸ named
            due := fun date known => due date known
            waiting := .inr ⟨status.trans retry, count, last⟩
            free }
        · intro eligible
          rcases eligible.waiting with new | ⟨_, count, last⟩
          · rw [status.trans retry] at new
            cases new
          · exact ⟨⟨fun date known => eligible.due date known, count⟩, last⟩
    · have not : ¬claim.Eligible row := not_eligible_of_rests mirror unexpired waits
      have status : ¬(q.status = .new ∨ q.status = .retry) := waits
      simp [selects, status, not]
  · have not : ¬claim.Eligible row := fun eligible => named (queueName ▸ eligible.named)
    simp [selects, named, not]

theorem mirror_of_paired (rowwise : List.Forall₂ Mirror
      (stored.map FileSystemJobMetaData.entry) queue)
    {pair : Pair CliType Value} (member : pair ∈ paired stored queue) :
    Mirror pair.1.1.entry pair.2 := by
  have placed : List.Forall₂ (fun row other => Mirror row.1.entry other) stored.zipIdx queue := by
    rw [← List.zipIdx_map_fst 0 stored, List.map_map] at rowwise
    exact List.forall₂_map_left_iff.mp rowwise
  exact List.forall₂_zip placed member

private theorem paired_fst (rowwise : List.Forall₂ Mirror
      (stored.map FileSystemJobMetaData.entry) queue) :
    (paired stored queue).map Prod.fst = stored.zipIdx := by
  have even := rowwise.length_eq
  rw [List.length_map] at even
  exact List.map_fst_zip (by rw [List.length_zipIdx, even])

private theorem paired_snd (rowwise : List.Forall₂ Mirror
      (stored.map FileSystemJobMetaData.entry) queue) :
    (paired stored queue).map Prod.snd = queue := by
  have even := rowwise.length_eq
  rw [List.length_map] at even
  exact List.map_snd_zip (by rw [List.length_zipIdx, even])

private theorem paired_places (rowwise : List.Forall₂ Mirror
      (stored.map FileSystemJobMetaData.entry) queue) :
    (paired stored queue).Pairwise fun pair other => pair.1.2 < other.1.2 := by
  have places : ((paired stored queue).map fun pair => pair.1.2) =
      List.range' 0 stored.length := by
    rw [← List.zipIdx_map_snd, ← paired_fst rowwise, List.map_map]
    rfl
  have increasing : ((paired stored queue).map fun pair => pair.1.2).Pairwise (· < ·) := by
    rw [places]
    exact List.pairwise_lt_range'
  exact List.pairwise_map.mp increasing

/-- The pairs whose row a fetch may claim. -/
def eligiblePairs (claim : Claim Key) (stored : List (FileSystemJobMetaData CliType Value))
    (queue : List SqlCommonDbOddJobMetaData) : List (Pair CliType Value) :=
  (paired stored queue).filter fun pair => claim.Eligible pair.2

/-- The pairs that the file system takes. -/
def takenPairs (claim : Claim Key) (stored : List (FileSystemJobMetaData CliType Value))
    (queue : List SqlCommonDbOddJobMetaData) : List (Pair CliType Value) :=
  (orderBy fileOrder (eligiblePairs claim stored queue)).take claim.fetchSize

omit [LinearOrder Key] in
/-- Under the same tests the file system looks among the jobs that SQL may claim. -/
theorem fetched_eq_takenPairs
    (rowwise : List.Forall₂ Mirror (stored.map FileSystemJobMetaData.entry) queue)
    (unexpired : Unexpired claim queue) (tests : SameTests claim (paired stored queue)) :
    fetched claim.queueNames claim.fetchSize (fun _ => claim.lockTime) stored =
      .ok ((takenPairs claim stored queue).map Prod.fst) := by
  have passes : ∀ pair ∈ paired stored queue,
      selects claim.queueNames claim.lockTime pair.1.1 = .ok (decide (claim.Eligible pair.2)) := by
    intro pair member
    have beside : pair.2 ∈ queue := by
      rw [← paired_snd rowwise]
      exact List.mem_map_of_mem member
    apply selects_eq_eligible (mirror_of_paired rowwise member)
    · exact unexpired pair.2 beside
    · exact tests.due pair member
    · exact tests.rested pair member
  have kept : whereThrows (fun row => selects claim.queueNames claim.lockTime row.1)
      ((paired stored queue).map Prod.fst) =
        .ok ((eligiblePairs claim stored queue).map Prod.fst) := whereThrows_map passes
  rw [paired_fst rowwise] at kept
  have places : (eligiblePairs claim stored queue).Pairwise fun pair other =>
      pair.1.2 < other.1.2 := (paired_places rowwise).filter _
  have sorted : orderBy (fun row => priority row.1)
      ((eligiblePairs claim stored queue).map Prod.fst) =
        (orderBy fileOrder (eligiblePairs claim stored queue)).map Prod.fst := by
    rw [orderBy_map, orderBy_place (fun pair : Pair CliType Value => priority pair.1.1) places]
    rfl
  rw [fetched, kept]
  change Except.ok ((orderBy (fun row => priority row.1)
    ((eligiblePairs claim stored queue).map Prod.fst)).take claim.fetchSize) = _
  rw [sorted, ← List.map_take]
  rfl

/-- Under the same order as well, SQL claims the rows beside them. -/
theorem takenPairs_perm {scan : List SqlCommonDbOddJobMetaData}
    (rowwise : List.Forall₂ Mirror (stored.map FileSystemJobMetaData.entry) queue)
    (ids : (queue.map SqlCommonDbOddJobMetaData.id).Nodup) (order : scan.Perm queue)
    (untied : Untied claim queue) (ordered : SameOrder claim (paired stored queue)) :
    ((takenPairs claim stored queue).map Prod.snd).Perm
      (queue.filter fun row => claim.Takes scan row) := by
  have distinct : queue.Nodup := List.Nodup.of_map _ ids
  have pairs : (eligiblePairs claim stored queue).Nodup := by
    apply List.Nodup.filter
    apply List.Nodup.of_map Prod.snd
    rw [paired_snd rowwise]
    exact distinct
  have first : First (fun pair : Pair CliType Value => claim.priority pair.2) claim.fetchSize
      (eligiblePairs claim stored queue) (takenPairs claim stored queue) :=
    (first_take_iff _ pairs).mpr ordered _ (List.Perm.refl _)
  have rows : (eligiblePairs claim stored queue).map Prod.snd =
      queue.filter fun row => claim.Eligible row := by
    calc (eligiblePairs claim stored queue).map Prod.snd
        = ((paired stored queue).map Prod.snd).filter fun row => claim.Eligible row := by
          rw [List.filter_map]
          rfl
      _ = queue.filter fun row => claim.Eligible row := by rw [paired_snd rowwise]
  have chosen := first.map
  rw [rows] at chosen
  apply chosen.unique (claim.takes_first_eligible order ids) (distinct.filter _)
  intro row member other member'
  exact untied row (List.mem_filter.mp member).1 other (List.mem_filter.mp member').1

/-- Under the same tests and the same order both stores fetch the same jobs. -/
theorem fetched_of_mirror {scan : List SqlCommonDbOddJobMetaData}
    (rowwise : List.Forall₂ Mirror (stored.map FileSystemJobMetaData.entry) queue)
    (ids : (queue.map SqlCommonDbOddJobMetaData.id).Nodup) (order : scan.Perm queue)
    (unexpired : Unexpired claim queue) (untied : Untied claim queue)
    (tests : SameTests claim (paired stored queue)) (ordered : SameOrder claim (paired stored queue)) :
    ∃ filtered, fetched claim.queueNames claim.fetchSize (fun _ => claim.lockTime) stored =
        .ok filtered ∧
      (filtered.map fun row => row.1.jobId).Perm
        ((queue.filter fun row => claim.Takes scan row).map SqlCommonDbOddJobMetaData.jobGuid) := by
  refine ⟨_, fetched_eq_takenPairs rowwise unexpired tests, ?_⟩
  have beside : ((takenPairs claim stored queue).map Prod.fst).map (fun row => row.1.jobId) =
      ((takenPairs claim stored queue).map Prod.snd).map SqlCommonDbOddJobMetaData.jobGuid := by
    rw [List.map_map, List.map_map]
    apply List.map_congr_left
    intro pair taken
    have eligible := mem_orderBy.mp (List.mem_of_mem_take taken)
    exact (mirror_of_paired rowwise (List.mem_filter.mp eligible).1).jobId
  rw [beside]
  exact (takenPairs_perm rowwise ids order untied ordered).map _

end Fetch

end OddJob.FileSystem
