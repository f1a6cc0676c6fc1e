import OddJob.Lib.Amortized
import OddJob.Akka.Shell
import OddJob.Sql.RetryWait

/-! No starvation. Fetches in the default order that pass over a job they could have claimed
use up the jobs that were there before it: no job that is added or tried again meanwhile gets
ahead of it. -/

namespace OddJob.Sql

open Linq Transition Akka

/-- New or in retry, and not claimed. -/
def isWaiting (q : SqlCommonDbOddJobMetaData) : Bool :=
  (q.status = .new || q.status = .retry) && q.lockClaimTime.isNone

namespace Retrying

variable {Key : Type} [LinearOrder Key] {collate : Option Ticks → Key}
  {queueNames : List String} {target : SqlCommonDbOddJobMetaData} {date : Ticks}

/-- The key of a row in the order of `DefaultJobQueueManagerPriority`. -/
def dated (collate : Option Ticks → Key) (q : SqlCommonDbOddJobMetaData) : Key :=
  defaultJobQueueManagerPriority collate (jobLockData q)

/-- A row of the queues that waits, and need not come after the target. -/
def isAhead (collate : Option Ticks → Key) (queueNames : List String)
    (target q : SqlCommonDbOddJobMetaData) : Bool :=
  queueNames.contains q.queueName && isWaiting q && dated collate q ≤ dated collate target &&
    q.id ≠ target.id

def ahead (collate : Option Ticks → Key) (queueNames : List String)
    (target : SqlCommonDbOddJobMetaData) (state : Retrying) : Nat :=
  state.tables.queue.countP (isAhead collate queueNames target)

/-- A fetch that could have claimed the target and claimed others instead. -/
structure Pass where
  fetchSize : Nat
  /-- the jobs among them that somebody had claimed before, for too long -/
  reclaimed : Nat
  deriving DecidableEq, Repr

/-- A fetch of no queues but these passes over the target. -/
def pass (queueNames : List String) (target : SqlCommonDbOddJobMetaData) (state : Retrying)
    (action : Ticks × StoreOperation Key) (_ : Retrying) : Option Pass :=
  match action.2 with
  | .getJobs call scan _ =>
    if target ∈ state.tables.queue ∧ call.Eligible target ∧ ¬ call.Takes scan target ∧
        ∀ name ∈ call.queueNames, name ∈ queueNames then
      some {
        fetchSize := call.fetchSize
        reclaimed := state.tables.queue.countP fun q =>
          decide (call.Takes scan q) && q.lockClaimTime.isSome }
    else none
  | _ => none

/-- Every fetch is in the default order, and nobody edits the metadata of a job. -/
def Ordinary (collate : Option Ticks → Key) (action : Ticks × StoreOperation Key) : Prop :=
  match action.2 with
  | .getJobs call _ _ => call.orderPredicate = defaultJobQueueManagerPriority collate
  | .addJob _ | .mark _ _ | .purgeQueue _ => True
  | .updateJobMetadataAndParameters _ | .updateJobMetadataValues _ _ _
  | .updateJobMetadataFull _ _ => False

/-- Later dates come later. -/
def Chronological (collate : Option Ticks → Key) : Prop :=
  ∀ earlier later : Ticks, earlier < later → collate (some earlier) < collate (some later)

private theorem not_isAhead_of_recent (chronological : Chronological collate)
    (known : (jobLockData target).mostRecentDate = some date) {now : Ticks}
    (positive : minValue ≤ date) (past : date < now) {q : SqlCommonDbOddJobMetaData}
    (recent : q.createdDate = some now ∧ q.lastAttempt = none ∨ q.lastAttempt = some now) :
    isAhead collate queueNames target q = false := by
  have later : 0 < now := positive.trans_lt past
  have behind : dated collate target < dated collate q := by
    have latest : ∃ time, (jobLockData q).mostRecentDate = some time ∧ now ≤ time := by
      rcases recent with ⟨created, untried⟩ | tried
      · simp only [jobLockData, created, untried, Option.getD_some, Option.getD_none, minValue,
          gt_iff_lt, later, ↓reduceIte]
        exact ⟨now, rfl, le_rfl⟩
      · simp only [jobLockData, tried, Option.getD_some]
        split
        · rename_i newer
          cases created : q.createdDate with
          | none =>
            rw [created, Option.getD_none] at newer
            exact absurd newer (not_lt.mpr later.le)
          | some time =>
            rw [created, Option.getD_some] at newer
            exact ⟨time, rfl, newer.le⟩
        · exact ⟨now, rfl, le_rfl⟩
    obtain ⟨time, same, after⟩ := latest
    simp only [dated, defaultJobQueueManagerPriority, known, same]
    exact chronological date time (past.trans_le after)
  simp [isAhead, behind]

private theorem ahead_addJob (chronological : Chronological collate)
    (known : (jobLockData target).mostRecentDate = some date) {state : Retrying}
    (keyed : Keyed state.tables) (positive : minValue ≤ date) (past : date < state.clock)
    (jobData : SerializableOddJob) :
    (state.tables.addJob jobData state.clock).queue.countP (isAhead collate queueNames target) =
      state.ahead collate queueNames target := by
  have behind : isAhead collate queueNames target
      (publishedRow jobData state.tables.nextId state.clock) = false :=
    not_isAhead_of_recent chronological known positive past (.inl ⟨rfl, rfl⟩)
  rw [keyed.queue_addJob, List.countP_append, List.countP_singleton, behind]
  rfl

private theorem ahead_mark (chronological : Chronological collate)
    (known : (jobLockData target).mostRecentDate = some date) {state : Retrying}
    (positive : minValue ≤ date) (past : date < state.clock) (mark : Mark) (jobId : Guid) :
    (mark.apply jobId state.clock state.tables).queue.countP
      (isAhead collate queueNames target) ≤ state.ahead collate queueNames target := by
  have behind (q : SqlCommonDbOddJobMetaData) :
      isAhead collate queueNames target (mark.set state.clock q) = false := by
    cases mark with
    | markJobInRetryAndIncrement _ =>
      exact not_isAhead_of_recent chronological known positive past (.inr rfl)
    | _ => simp [isAhead, isWaiting, Mark.set]
  rw [mark.apply_eq, updateJob, updateWhere, List.countP_map]
  apply List.countP_mono_left
  intro q _ counted
  simp only [Function.comp_apply] at counted
  split at counted
  · exact absurd counted (by simp [behind q])
  · exact counted

private theorem ahead_purge (purge : Purge) (state : Retrying) :
    (purge.deleteJobs (purge.deleteGenerics (purge.deleteParams state.tables))).queue.countP
      (isAhead collate queueNames target) ≤ state.ahead collate queueNames target :=
  List.filter_sublist.countP_le

section Fetch

variable {call : Claim Key} {scan queue : List SqlCommonDbOddJobMetaData}

private theorem not_isAhead_lock (q : SqlCommonDbOddJobMetaData) :
    isAhead collate queueNames target (call.lock q) = false := by
  simp [isAhead, isWaiting, Claim.lock]

private theorem ahead_claim (scan queue : List SqlCommonDbOddJobMetaData) :
    (call.update scan queue).countP (isAhead collate queueNames target) ≤
      queue.countP (isAhead collate queueNames target) := by
  rw [call.update_eq, List.countP_map]
  apply List.countP_mono_left
  intro q _ counted
  simp only [Function.comp_apply] at counted
  split at counted
  · exact absurd counted (by simp [not_isAhead_lock q])
  · exact counted

private theorem takes_length (order : scan.Perm queue)
    (ids : (queue.map SqlCommonDbOddJobMetaData.id).Nodup) (member : target ∈ queue)
    (eligible : call.Eligible target) (left : ¬ call.Takes scan target) :
    queue.countP (fun q => call.Takes scan q) = call.fetchSize := by
  have first := call.takes_first_eligible order ids
  have chosen : target ∉ queue.filter fun q => call.Takes scan q := by
    simp [List.mem_filter, left]
  have present : target ∈ queue.filter fun q => call.Eligible q :=
    List.mem_filter.mpr ⟨member, decide_eq_true eligible⟩
  rw [List.countP_eq_length_filter, first.length_eq_limit present chosen]

private theorem isAhead_of_takes (priority : call.orderPredicate = defaultJobQueueManagerPriority collate)
    (names : ∀ name ∈ call.queueNames, name ∈ queueNames) (order : scan.Perm queue)
    (ids : (queue.map SqlCommonDbOddJobMetaData.id).Nodup) (member : target ∈ queue)
    (eligible : call.Eligible target) (left : ¬ call.Takes scan target)
    {q : SqlCommonDbOddJobMetaData} (present : q ∈ queue) (taken : call.Takes scan q)
    (unclaimed : q.lockClaimTime = none) : isAhead collate queueNames target q = true := by
  have first := call.takes_first_eligible order ids
  have before : call.priority q ≤ call.priority target := by
    apply first.ahead target (List.mem_filter.mpr ⟨member, decide_eq_true eligible⟩)
    · simp [List.mem_filter, left]
    · exact List.mem_filter.mpr ⟨present, decide_eq_true taken⟩
  have own := Claim.eligible_iff.mp (call.eligible_of_takes order ids present taken)
  have different : q.id ≠ target.id := by
    intro same
    obtain rfl := List.inj_on_of_nodup_map ids present member same
    exact left taken
  have waits : isWaiting q = true := by
    rcases own.waiting with new | ⟨retry, _⟩
    · simp [isWaiting, new, unclaimed]
    · simp [isWaiting, retry, unclaimed]
  simp only [Claim.priority, priority] at before
  simp [isAhead, names _ own.named, waits, dated, before, different]

private theorem ahead_pass (priority : call.orderPredicate = defaultJobQueueManagerPriority collate)
    (names : ∀ name ∈ call.queueNames, name ∈ queueNames) (order : scan.Perm queue)
    (ids : (queue.map SqlCommonDbOddJobMetaData.id).Nodup) (member : target ∈ queue)
    (eligible : call.Eligible target) (left : ¬ call.Takes scan target) :
    call.fetchSize + (call.update scan queue).countP (isAhead collate queueNames target) ≤
      queue.countP (isAhead collate queueNames target) +
        queue.countP fun q => decide (call.Takes scan q) && q.lockClaimTime.isSome := by
  rw [← takes_length order ids member eligible left, call.update_eq, List.countP_map]
  apply List.countP_add_le
  intro q present
  simp only [Function.comp_apply]
  by_cases taken : call.Takes scan q
  · simp only [taken, decide_true, ↓reduceIte, not_isAhead_lock, Bool.true_and]
    cases claimed : q.lockClaimTime with
    | none =>
      rw [isAhead_of_takes priority names order ids member eligible left present taken claimed]
      simp
    | some time => simp
  · simp [taken]

end Fetch

private theorem clock_of_step {state after : Retrying} {action : Ticks × StoreOperation Key}
    (taken : state.step action = some after) : state.clock ≤ after.clock := by
  obtain ⟨now, operation⟩ := action
  simp only [Retrying.step] at taken
  split at taken
  · rename_i order
    cases operation <;> simp only [perform] at taken <;> (try split at taken) <;> cases taken <;>
      exact order
  · cases taken

private theorem kept_of_ordinary {tables : Tables} {clock : Ticks} (keyed : Keyed tables)
    {state : Retrying} (reached : Reaches (@Retrying.step Key _)
      (fun _ action => Ordinary collate action) { tables, clock } state) :
    Kept state ∧ clock ≤ state.clock := by
  refine @Reaches.invariant _ _ _ _ _ _ (fun state => Kept state ∧ clock ≤ state.clock) reached
    ⟨⟨keyed, by simp, by simp, by simp⟩, le_refl clock⟩ ?_
  intro before action after valid ordinary taken
  have patient : Patient before action := by
    obtain ⟨now, operation⟩ := action
    cases operation <;> trivial
  exact ⟨valid.1.step patient taken, valid.2.trans (clock_of_step taken)⟩

private theorem pays_of_step (chronological : Chronological collate)
    (known : (jobLockData target).mostRecentDate = some date) (positive : minValue ≤ date)
    {before after : Retrying} {action : Ticks × StoreOperation Key} (keyed : Keyed before.tables)
    (past : date < before.clock) (ordinary : Ordinary collate action)
    (taken : before.step action = some after) :
    Pays (ahead collate queueNames target) Pass.fetchSize Pass.reclaimed
      (pass queueNames target before action after) before after := by
  obtain ⟨now, operation⟩ := action
  simp only [Retrying.step] at taken
  split at taken
  · rename_i order
    let current : Retrying := { before with clock := now }
    have recent : date < current.clock := past.trans_le order
    cases operation with
    | addJob jobData =>
      simp only [perform] at taken
      split at taken
      · cases taken
        have same := @ahead_addJob _ _ _ queueNames _ _ chronological known current keyed positive
          recent jobData
        simp only [Pays, pass, Option.elim_none, Nat.zero_add, Nat.add_zero]
        exact same.le
      · cases taken
    | getJobs call scan rows =>
      simp only [perform] at taken
      split at taken
      · rename_i fetches
        cases taken
        obtain ⟨permuted, _⟩ := fetches.2
        simp only [Pays, pass]
        split
        · rename_i passed
          obtain ⟨member, eligible, left, names⟩ := passed
          exact ahead_pass ordinary names permuted keyed.ids member eligible left
        · simp only [Option.elim_none, Nat.zero_add, Nat.add_zero]
          exact ahead_claim scan before.tables.queue
      · cases taken
    | mark mark jobId =>
      cases taken
      simp only [Pays, pass, Option.elim_none, Nat.zero_add, Nat.add_zero]
      exact @ahead_mark _ _ _ queueNames _ _ chronological known current positive recent mark jobId
    | purgeQueue purge =>
      cases taken
      simp only [Pays, pass, Option.elim_none, Nat.zero_add, Nat.add_zero]
      exact ahead_purge purge current
    | updateJobMetadataAndParameters | updateJobMetadataValues | updateJobMetadataFull =>
      exact ordinary.elim
  · cases taken

/-- However many jobs are added or tried again meanwhile, the fetches that pass over a job
take no more in its place than the jobs that waited before it, and those that had been
claimed for too long. -/
theorem passes_bounded_by_ahead (chronological : Chronological collate)
    (known : (jobLockData target).mostRecentDate = some date) (positive : minValue ≤ date)
    {tables : Tables} {clock : Ticks} (keyed : Keyed tables) (past : date < clock)
    {state : Retrying} {passes : List Pass}
    (reached : Reaches (observed (@Retrying.step Key _) (pass queueNames target))
      (fun _ action => Ordinary collate action) ({ tables, clock }, []) (state, passes)) :
    (passes.map Pass.fetchSize).sum ≤
      tables.queue.countP (isAhead collate queueNames target) +
        (passes.map Pass.reclaimed).sum := by
  have paid := @Reaches.amortized _ _ _ _ _ (fun _ action => Ordinary collate action) _
    (ahead collate queueNames target) Pass.fetchSize Pass.reclaimed _ _ reached
    fun before action after earlier ordinary taken => by
      obtain ⟨kept, later⟩ := kept_of_ordinary keyed earlier
      exact pays_of_step chronological known positive kept.keyed (past.trans_le later) ordinary
        taken
  exact (Nat.le_add_right _ _).trans paid

/-- Nulls first. -/
def byTicks (date : Option Ticks) : Int := date.getD minValue

def growingTables : Tables where
  queue := [queuedRow 1 .new none, queuedRow 2 .new none]
  nextId := 3

def grownTables : Tables :=
  growingTables.addJob { hastyJob 0 with jobId := 20 } 100

def singleClaim : Claim Int where
  queueNames := ["default"]
  fetchSize := 1
  orderPredicate := defaultJobQueueManagerPriority byTicks
  lockGuid := 40
  lockTime := 101
  jobClaimLockTimeoutInSeconds := defaultJobClaimLockTimeoutInSeconds

def singleRows : List SqlQueueRowSet :=
  joinQuery ((claimTables singleClaim grownTables.queue grownTables).queue.filter
    fun q => q.lockGuid = some singleClaim.lockGuid)
    (claimTables singleClaim grownTables.queue grownTables)

private theorem passed_once : ∃ state, Reaches
    (observed (@Retrying.step Int _) (pass ["default"] (queuedRow 2 .new none)))
    (fun _ action => Ordinary byTicks action) ({ tables := growingTables, clock := 100 }, [])
    (state, [⟨1, 0⟩]) := by
  have added : observed (@Retrying.step Int _) (pass ["default"] (queuedRow 2 .new none))
      ({ tables := growingTables, clock := 100 }, [])
      (100, .addJob { hastyJob 0 with jobId := 20 }) =
        some ({ tables := grownTables, clock := 100, waits := [(20, 0)] }, []) := rfl
  have fetched : observed (@Retrying.step Int _) (pass ["default"] (queuedRow 2 .new none))
      ({ tables := grownTables, clock := 100, waits := [(20, 0)] }, [])
      (101, .getJobs singleClaim grownTables.queue singleRows) =
        some ({ tables := claimTables singleClaim grownTables.queue grownTables,
                clock := 101, waits := [(20, 0)] }, [⟨1, 0⟩]) := by
    rw [observed_eq_some_iff]
    constructor
    · have fetches : Fetches grownTables singleClaim grownTables.queue singleRows :=
        ⟨.refl _, by decide, .refl _⟩
      have order : (100 : Ticks) ≤ 101 := by decide
      simp only [Retrying.step, perform, order, ↓reduceIte]
      rw [if_pos ⟨rfl, fetches⟩]
    · rfl
  have adds : Ordinary byTicks
      ((100, .addJob { hastyJob 0 with jobId := 20 }) : Ticks × StoreOperation Int) := trivial
  have fetches : Ordinary byTicks (101, .getJobs singleClaim grownTables.queue singleRows) := rfl
  exact ⟨_, .next (.next .refl adds added) fetches fetched⟩

/-- The second job is passed over once, for the first. -/
theorem passes_bounded_by_ahead_of_two : ∃ state passes,
    Reaches (observed (@Retrying.step Int _) (pass ["default"] (queuedRow 2 .new none)))
      (fun _ action => Ordinary byTicks action)
      ({ tables := growingTables, clock := 100 }, []) (state, passes) ∧
    passes = [⟨1, 0⟩] ∧ (passes.map Pass.fetchSize).sum ≤
      growingTables.queue.countP (isAhead byTicks ["default"] (queuedRow 2 .new none)) +
        (passes.map Pass.reclaimed).sum := by
  obtain ⟨state, reached⟩ := passed_once
  exact ⟨state, _, reached, rfl, @passes_bounded_by_ahead Int _ byTicks _ _ 10 (fun _ _ before => before) rfl
    (by decide) growingTables 100 ⟨by decide, by decide⟩ (by decide) _ _ reached⟩

end Retrying

end OddJob.Sql
