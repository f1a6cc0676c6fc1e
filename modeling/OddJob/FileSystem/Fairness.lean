import OddJob.Lib.Amortized
import OddJob.Lib.Ranking
import OddJob.FileSystem.Store
import Mathlib.Algebra.Order.BigOperators.Group.List
import Mathlib.Algebra.Order.Group.Nat

/-! How long a job in the file can be passed over. A job that is tried again keeps the date
it was created on, so it gets ahead of younger jobs once for every attempt it has left. -/

namespace OddJob.FileSystem

open Linq Transition

variable {CliType Value : Type} {queueNames : List String} {place : Nat} {date : Ticks}

/-- The job waits, and not for an attempt too many. -/
def isWaiting (q : FileSystemJobMetaData CliType Value) : Bool :=
  q.status = .new || (q.status = .retry &&
    q.retryParameters.all fun parameters => parameters.retryCount ≤ parameters.maxRetries)

/-- How many times the job can still be retried. -/
def retries (q : FileSystemJobMetaData CliType Value) : Nat :=
  (q.retryParameters.map fun parameters =>
    (parameters.maxRetries - parameters.retryCount).toNat).getD 0

/-- How many fetches can still take the job while it stays ahead of the date. -/
def attempts (queueNames : List String) (date : Ticks)
    (q : FileSystemJobMetaData CliType Value) : Nat :=
  if q.queueName ∈ queueNames ∧ priority q ≤ date then (isWaiting q).toNat + retries q else 0

/-- The attempts left to the jobs in the file but the one in this place. -/
def attemptsAhead (queueNames : List String) (place : Nat) (date : Ticks)
    (serializer : List (FileSystemJobMetaData CliType Value)) : Nat :=
  (serializer.zipIdx.map fun row =>
    if row.2 = place then 0 else attempts queueNames date row.1).sum

/-- An operation on the list in the file, which stays as it is where the operation throws. -/
def turn (serializer : List (FileSystemJobMetaData CliType Value))
    (operation : Operation CliType Value) : Option (List (FileSystemJobMetaData CliType Value)) :=
  match operation.run serializer with
  | .ok (after, _) => some after
  | .error _ => some serializer

/-- The test of `GetJobs` has been passed. -/
def selected (queueNames : List String) (now : Ticks)
    (q : FileSystemJobMetaData CliType Value) : Bool :=
  match selects queueNames now q with
  | .ok accepted => accepted
  | .error _ => false

/-- The `fetchSize` of a fetch from no queues but these that could have taken the job in this
place, at its priority, and took others instead. -/
def pass (queueNames : List String) (place : Nat) (date : Ticks)
    (serializer : List (FileSystemJobMetaData CliType Value))
    (operation : Operation CliType Value) (_ : List (FileSystemJobMetaData CliType Value)) :
    Option Nat :=
  match operation with
  | .getJobs names fetchSize now _ =>
    match fetched names fetchSize now serializer with
    | .ok filtered =>
      if (serializer[place]?.any fun q => selected names (now place) q && priority q = date) ∧
          (∀ row ∈ filtered, row.2 ≠ place) ∧ ∀ name ∈ names, name ∈ queueNames then
        some fetchSize.toNat
      else none
    | .error _ => none
  | _ => none

/-- What is added or fails comes after the date, and no counter of retries overflows. -/
def Timely (date : Ticks) (serializer : List (FileSystemJobMetaData CliType Value))
    (operation : Operation CliType Value) : Prop :=
  match operation with
  | .writeJobToQueue data => date < priority data
  | .mark (.markJobInRetryAndIncrement lastAttempt) jobId _ => date < lastAttempt ∧
      ∀ q ∈ serializer, q.jobId = jobId →
        ∀ parameters ∈ q.retryParameters, parameters.retryCount < 2147483647
  | _ => True

instance (date : Ticks) (serializer : List (FileSystemJobMetaData CliType Value)) :
    DecidablePred (Timely date serializer)
  | .writeJobToQueue data => inferInstanceAs (Decidable (date < priority data))
  | .mark (.markJobInRetryAndIncrement _) _ _ => inferInstanceAs (Decidable (_ ∧ _))
  | .mark .markJobFailed _ _ | .mark .markJobInProgress _ _ | .mark .markJobSuccess _ _
  | .getJobs _ _ _ _ | .getJob _ => .isTrue trivial

section Rows

variable {q set : FileSystemJobMetaData CliType Value}

private theorem isWaiting_of_selects {now : Ticks} (passed : selects queueNames now q = .ok true) :
    q.queueName ∈ queueNames ∧ isWaiting q = true := by
  unfold selects at passed
  split at passed
  · rename_i tested
    simp only [Bool.and_eq_true, Bool.or_eq_true, decide_eq_true_eq,
      List.contains_iff_mem] at tested
    refine ⟨tested.1, ?_⟩
    split at passed
    · rename_i none
      rcases tested.2 with new | retry
      · simp [isWaiting, new]
      · simp [isWaiting, retry, none]
    · rename_i parameters given
      split at passed
      · rename_i new
        simp [isWaiting, new]
      · rename_i old
        split at passed
        · rename_i room
          simp [isWaiting, tested.2.resolve_left old, given, room]
        · cases passed
  · cases passed

private theorem attempts_mono (queueName : set.queueName = q.queueName)
    (first : priority set ≤ date → priority q ≤ date)
    (fewer : (isWaiting set).toNat + retries set ≤ (isWaiting q).toNat + retries q) :
    attempts queueNames date set ≤ attempts queueNames date q := by
  unfold attempts
  rw [queueName]
  split
  · rename_i ahead
    rw [if_pos ⟨ahead.1, first ahead.2⟩]
    exact fewer
  · exact Nat.zero_le _

private theorem attempts_settled (queueName : set.queueName = q.queueName)
    (first : priority set = priority q) (parameters : set.retryParameters = q.retryParameters)
    (settled : set.status ≠ .new ∧ set.status ≠ .retry) :
    attempts queueNames date set ≤ attempts queueNames date q := by
  refine attempts_mono queueName (fun before => first ▸ before) ?_
  have gone : isWaiting set = false := by simp [isWaiting, settled]
  rw [gone, retries, parameters]
  exact Nat.add_le_add_right (Nat.zero_le _) _

private theorem attempts_queued (now : Ticks) (q : FileSystemJobMetaData CliType Value) :
    attempts queueNames date (queued now q) ≤ attempts queueNames date q :=
  attempts_settled rfl rfl rfl (by simp [queued])

private theorem attempts_taken (now : Ticks) (named : q.queueName ∈ queueNames)
    (first : priority q ≤ date) (waiting : isWaiting q = true) :
    attempts queueNames date (queued now q) + 1 = attempts queueNames date q := by
  have still : priority (queued now q) = priority q := rfl
  have same : retries (queued now q) = retries q := rfl
  have queue : (queued now q).queueName = q.queueName := rfl
  have gone : isWaiting (queued now q) = false := by simp [isWaiting, queued]
  simp only [attempts, still, same, gone, queue, named, first, waiting, and_self, ↓reduceIte,
    Bool.toNat_false, Bool.toNat_true]
  omega

private theorem attempts_transformFunc {mark : Mark} {now : Ticks}
    (late : ∀ lastAttempt, mark = .markJobInRetryAndIncrement lastAttempt → date < lastAttempt ∧
      ∀ parameters ∈ q.retryParameters, parameters.retryCount < 2147483647)
    (done : transformFunc mark now q = .ok set) :
    attempts queueNames date set ≤ attempts queueNames date q := by
  cases mark with
  | markJobInRetryAndIncrement lastAttempt =>
    obtain ⟨after, small⟩ := late lastAttempt rfl
    cases given : q.retryParameters with
    | none => simp [transformFunc, given] at done
    | some parameters =>
      have fits := small parameters given
      simp only [transformFunc, given, Except.ok.injEq] at done
      subst done
      have counted : increment parameters.retryCount = parameters.retryCount + 1 := by
        rw [increment, if_neg (by omega)]
      refine attempts_mono rfl ?_ ?_
      · intro before
        simp only [priority, Option.bind_some, Option.getD_some, min_le_iff] at before ⊢
        exact .inl (before.resolve_right (not_le.mpr after))
      · simp only [isWaiting, retries, given, counted, Option.map_some, Option.getD_some,
          Option.all_some]
        by_cases room : parameters.retryCount + 1 ≤ parameters.maxRetries
        · simp [room]
          omega
        · simp [room]
          omega
  | markJobFailed | markJobInProgress | markJobSuccess =>
    cases done
    exact attempts_settled rfl rfl rfl (by simp)

end Rows

section Lists

variable {serializer after results : List (FileSystemJobMetaData CliType Value)}

private theorem attemptsAhead_mono (rowwise : List.Forall₂ (fun q set =>
    attempts queueNames date set ≤ attempts queueNames date q) serializer after) :
    attemptsAhead queueNames place date after ≤ attemptsAhead queueNames place date serializer := by
  refine List.Forall₂.sum_le_sum ?_
  rw [List.forall₂_map_left_iff, List.forall₂_map_right_iff]
  refine (forall₂_zipIdx rowwise 0).flip.imp fun row row' both => ?_
  rw [both.2]
  split
  · exact le_refl 0
  · exact both.1

private theorem attemptsAhead_append {data : FileSystemJobMetaData CliType Value}
    (late : date < priority data) :
    attemptsAhead queueNames place date (serializer ++ [data]) =
      attemptsAhead queueNames place date serializer := by
  have none : attempts queueNames date data = 0 := by
    rw [attempts, if_neg]
    exact fun ahead => absurd ahead.2 (not_le.mpr late)
  simp [attemptsAhead, List.zipIdx_append, none]

private theorem forall₂_marked {jobId : Guid} {mark : Mark} {now : Ticks}
    (late : ∀ lastAttempt, mark = .markJobInRetryAndIncrement lastAttempt → date < lastAttempt ∧
      ∀ q ∈ serializer, q.jobId = jobId →
        ∀ parameters ∈ q.retryParameters, parameters.retryCount < 2147483647)
    (done : writeJobState jobId (transformFunc mark now) serializer = .ok after) :
    List.Forall₂ (fun q set => attempts queueNames date set ≤ attempts queueNames date q)
      serializer after := by
  induction serializer generalizing after with
  | nil =>
    cases done
    exact .nil
  | cons q rest ih =>
    unfold writeJobState at done
    split at done
    · rename_i own
      obtain ⟨set, transformed, rfl⟩ := map_eq_ok done
      refine .cons (attempts_transformFunc (fun lastAttempt same => ?_) transformed)
        (List.forall₂_same.mpr fun _ _ => le_refl _)
      exact ⟨(late lastAttempt same).1, (late lastAttempt same).2 q List.mem_cons_self own⟩
    · obtain ⟨later, rested, rfl⟩ := map_eq_ok done
      refine .cons (le_refl _) (ih (fun lastAttempt same => ?_) rested)
      exact ⟨(late lastAttempt same).1, fun other member =>
        (late lastAttempt same).2 other (List.mem_cons_of_mem q member)⟩

private theorem zipIdx_map_zipIdx (set : FileSystemJobMetaData CliType Value × Nat →
    FileSystemJobMetaData CliType Value) (serializer : List (FileSystemJobMetaData CliType Value)) :
    (serializer.zipIdx.map set).zipIdx = serializer.zipIdx.map fun row => (set row, row.2) := by
  apply List.ext_getElem?
  intro index
  simp only [List.getElem?_zipIdx, List.getElem?_map, Nat.zero_add]
  cases serializer[index]? <;> rfl

section Fetch

variable {names : List String} {fetchSize : Int} {now queueTime : Nat → Ticks}
  {filtered : List (FileSystemJobMetaData CliType Value × Nat)}

private theorem taken_length (done : fetched names fetchSize now serializer = .ok filtered) :
    filtered.length ≤ (serializer.zipIdx.map fun row =>
      (filtered.any fun item => item.2 = row.2).toNat).sum := by
  obtain ⟨kept, permuted, sublist⟩ := (fetched_rows done).1
  have each : (kept.map fun row =>
      (filtered.any fun item => item.2 = row.2).toNat).sum = filtered.length := by
    have ones : (kept.map fun row => (filtered.any fun item => item.2 = row.2).toNat) =
        kept.map fun _ => 1 := by
      apply List.map_congr_left
      intro row member
      have taken : (filtered.any fun item => item.2 = row.2) = true :=
        List.any_eq_true.mpr ⟨row, permuted.mem_iff.mp member, decide_eq_true rfl⟩
      rw [taken, Bool.toNat_true]
    rw [ones, ← permuted.length_eq]
    simp
  rw [← each]
  exact (sublist.map _).sum_le_sum fun count _ => Nat.zero_le count

private theorem attemptsAhead_getJobs
    (done : getJobs names fetchSize now queueTime serializer = .ok (after, results)) :
    attemptsAhead queueNames place date after ≤ attemptsAhead queueNames place date serializer := by
  obtain ⟨filtered, _, rfl, _⟩ := getJobs_eq_ok done
  rw [attemptsAhead, zipIdx_map_zipIdx, List.map_map]
  refine List.sum_le_sum fun row _ => ?_
  simp only [Function.comp_apply]
  split
  · exact le_refl 0
  · split
    · exact attempts_queued _ _
    · exact le_refl _

private theorem attemptsAhead_pass
    (done : getJobs names fetchSize now queueTime serializer = .ok (after, results))
    (taken : fetched names fetchSize now serializer = .ok filtered)
    {q : FileSystemJobMetaData CliType Value} (found : serializer[place]? = some q)
    (could : selected names (now place) q = true) (same : priority q = date)
    (left : ∀ row ∈ filtered, row.2 ≠ place) (within : ∀ name ∈ names, name ∈ queueNames) :
    fetchSize.toNat + attemptsAhead queueNames place date after ≤
      attemptsAhead queueNames place date serializer := by
  obtain ⟨filtered', taken', rfl, _⟩ := getJobs_eq_ok done
  obtain rfl : filtered' = filtered := Except.ok.inj (taken'.symm.trans taken)
  obtain ⟨kept, tested, ordered⟩ := fetched_eq_ok taken
  have first := first_take (fun row => priority row.1) fetchSize.toNat kept
  rw [← ordered] at first
  have passed : selects names (now place) q = .ok true := by
    unfold selected at could
    split at could
    · rename_i accepted answer
      exact could ▸ answer
    · cases could
  have present : (q, place) ∈ kept := mem_whereThrows_of_passes tested
    (List.mem_zipIdx_iff_getElem?.mpr found) passed
  have unchosen : (q, place) ∉ filtered' := fun chosen => left _ chosen rfl
  have full := taken_length taken
  rw [first.length_eq_limit present unchosen] at full
  refine (Nat.add_le_add_right full _).trans ?_
  rw [attemptsAhead, attemptsAhead, zipIdx_map_zipIdx, List.map_map, ← List.sum_map_add]
  refine List.sum_le_sum fun row member => ?_
  simp only [Function.comp_apply]
  cases chosen : filtered'.any fun item => item.2 = row.2 with
  | false => simp
  | true =>
    obtain ⟨item, listed, index⟩ := List.any_eq_true.mp chosen
    have rows := (fetched_rows taken).1.subset listed
    obtain rfl : item = row := by
      obtain ⟨item, index'⟩ := item
      obtain ⟨row, index''⟩ := row
      simp only [decide_eq_true_eq] at index
      subst index
      have one := List.mem_zipIdx_iff_getElem?.mp rows
      have two := List.mem_zipIdx_iff_getElem?.mp member
      exact Prod.ext (Option.some.inj (one.symm.trans two)) rfl
    have other : item.2 ≠ place := left item listed
    have accepted : item ∈ kept := by
      rw [ordered] at listed
      exact mem_orderBy.mp (List.mem_of_mem_take listed)
    have answer := passes_of_mem_whereThrows tested accepted
    obtain ⟨named, waiting⟩ := isWaiting_of_selects answer
    have before : priority item.1 ≤ date := same ▸ first.ahead _ present unchosen item listed
    have used := attempts_taken (queueTime item.2) (within _ named) before waiting
    simp only [other, ↓reduceIte, Bool.toNat_true]
    omega

end Fetch

end Lists

private theorem pays_of_turn {serializer after : List (FileSystemJobMetaData CliType Value)}
    {operation : Operation CliType Value} (timely : Timely date serializer operation)
    (taken : turn serializer operation = some after) :
    Pays (attemptsAhead queueNames place date) id (fun _ => 0)
      (pass queueNames place date serializer operation after) serializer after := by
  unfold turn at taken
  cases ran : operation.run serializer with
  | error thrown =>
    rw [ran] at taken
    cases taken
    have silent : pass queueNames place date serializer operation serializer = none := by
      cases operation with
      | getJobs names fetchSize now queueTime =>
        simp only [Operation.run, getJobs] at ran
        simp only [pass]
        cases done : fetched names fetchSize now serializer with
        | error thrown => rfl
        | ok filtered =>
          rw [done] at ran
          cases ran
      | _ => rfl
    simp [silent, Pays]
  | ok result =>
    obtain ⟨changed, results⟩ := result
    rw [ran] at taken
    cases taken
    cases operation with
    | writeJobToQueue data =>
      cases ran
      simp only [Pays, pass, Option.elim_none, Nat.zero_add, Nat.add_zero]
      exact (attemptsAhead_append timely).le
    | getJob jobId =>
      cases ran
      simp only [Pays, pass, Option.elim_none, Nat.zero_add, Nat.add_zero]
      exact le_refl _
    | getJobs names fetchSize now queueTime =>
      simp only [Operation.run] at ran
      have kept := @attemptsAhead_getJobs _ _ queueNames place date _ _ _ _ _ _ _ ran
      obtain ⟨filtered, done, _⟩ := getJobs_eq_ok ran
      simp only [pass, done]
      split
      · rename_i passed
        obtain ⟨could, left, within⟩ := passed
        simp only [Option.any_eq_true, Bool.and_eq_true, decide_eq_true_eq] at could
        obtain ⟨q, found, tested⟩ := could
        exact attemptsAhead_pass ran done found tested.1 tested.2 left within
      · simp only [Pays, Option.elim_none, Nat.zero_add, Nat.add_zero]
        exact kept
    | mark kind jobId now =>
      simp only [Operation.run] at ran
      cases written : writeJobState jobId (transformFunc kind now) serializer with
      | error thrown =>
        rw [written] at ran
        cases ran
      | ok set =>
        rw [written] at ran
        cases ran
        simp only [Pays, pass, Option.elim_none, Nat.zero_add, Nat.add_zero]
        refine attemptsAhead_mono (forall₂_marked (fun lastAttempt same => ?_) written)
        subst same
        exact timely

/-- The fetches that pass over a job take no more in its place than the attempts that the
jobs before it have left, however many jobs are added and tried again meanwhile. -/
theorem passes_bounded_by_attempts {start serializer : List (FileSystemJobMetaData CliType Value)}
    {passes : List Nat}
    (reached : Reaches (observed turn (pass queueNames place date))
      (fun record operation => Timely date record.1 operation) (start, []) (serializer, passes)) :
    passes.sum ≤ attemptsAhead queueNames place date start := by
  have paid := @Reaches.amortized _ _ _ _ _ (Timely date) _ (attemptsAhead queueNames place date) id
    (fun _ => 0) _ _ reached fun _ _ _ _ timely taken => pays_of_turn timely taken
  have free : (passes.map fun _ => 0).sum = 0 := by simp
  rw [List.map_id, free] at paid
  omega

def agingJob (jobId : Guid) (createdOn : Ticks) : FileSystemJobMetaData String String where
  retryParameters := some { maxRetries := 1 }
  jobId
  jobArgs := []
  typeExecutedOn := "Jobs.SampleJob, Jobs"
  methodName := "Add"
  queueName := "default"
  createdOn
  status := .new
  methodGenericTypes := []

def agingRun : List (Operation String String) :=
  [.getJobs ["default"] 1 (fun _ => 20) fun _ => 20, .mark .markJobInProgress 1 21,
    .mark (.markJobInRetryAndIncrement 22) 1 22, .writeJobToQueue (agingJob 3 25),
    .getJobs ["default"] 1 (fun _ => 30) fun _ => 30]

theorem passes_bounded_by_attempts_of_retry : ∃ serializer passes,
    execute (fun record operation => decide (Timely 10 record.1 operation))
      (observed turn (pass ["default"] 1 10)) ([agingJob 1 5, agingJob 2 10], []) agingRun =
        some (serializer, passes) ∧
    passes = [1, 1] ∧ attemptsAhead ["default"] 1 10 [agingJob 1 5, agingJob 2 10] = 2 ∧
    passes.sum ≤ attemptsAhead ["default"] 1 10 [agingJob 1 5, agingJob 2 10] := by
  refine ⟨_, _, rfl, by decide, by decide, passes_bounded_by_attempts (reaches_of_execute
    (fun _ _ => of_decide_eq_true)
    (rfl : execute (fun record operation => decide (Timely 10 record.1 operation))
      (observed turn (pass ["default"] 1 10)) ([agingJob 1 5, agingJob 2 10], []) agingRun =
        some _))⟩

end OddJob.FileSystem
