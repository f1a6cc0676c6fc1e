import OddJob.Lib.Transition
import OddJob.Sql.Fetch
import OddJob.Sql.Guarded
import OddJob.Sql.Purger

/-! How long a job that has failed is kept back: its `MinRetryWait` from the adder to the
fetches after `MarkJobInRetryAndIncrement`. -/

namespace OddJob.Sql

open Linq Transition

/-- The waits that do not become shorter on their way into the table: whole seconds, and what
is a tick or two less and so long that a double does not tell the difference. -/
def Lasts (wait : Int) : Prop :=
  wait ≤ 2147483647 * ticksPerSecond ∧
    (wait % ticksPerSecond = 0 ∨
      (2 ^ 53 < wait ∧ wait % ticksPerSecond = ticksPerSecond - 1) ∨
      (2 ^ 54 < wait ∧ wait % ticksPerSecond = ticksPerSecond - 2))

theorem totalSeconds_le (wait : Ticks) : totalSeconds wait ≤ 2147483647 := by
  simp only [totalSeconds]
  generalize (if 0 ≤ Binary64.round (Binary64.round wait / ticksPerSecond) then _ else _) = whole
  split <;> omega

private theorem totalSeconds_lt {wait seconds exponent : Int} {ticks : ℚ}
    (nonneg : 0 ≤ wait) (positive : 0 < seconds) (rounded : Binary64.round wait ≤ ticks)
    (upper : ticks / ticksPerSecond < 2 ^ (exponent + 1))
    (margin : ticks / ticksPerSecond + 2 ^ (exponent - 52) / 2 < seconds) :
    totalSeconds wait < seconds := by
  have scale : (0 : ℚ) < ticksPerSecond := by norm_num [ticksPerSecond]
  have lower : 0 ≤ Binary64.round wait / ticksPerSecond :=
    div_nonneg (Binary64.round_nonneg (by exact_mod_cast nonneg)) scale.le
  have quotient : Binary64.round wait / ticksPerSecond ≤ ticks / ticksPerSecond :=
    div_le_div_of_nonneg_right rounded scale.le
  have double : Binary64.round (Binary64.round wait / ticksPerSecond) < seconds := by
    rcases lower.eq_or_lt with none | some
    · rw [← none, Binary64.round, zero_div, ← Int.cast_zero, Binary64.roundEven_intCast]
      simpa using positive
    · have close := Binary64.round_le_add (Binary64.round wait / ticksPerSecond)
      have distance := Binary64.ulp_le some (quotient.trans_lt upper)
      linarith
  have floor : ⌊Binary64.round (Binary64.round wait / ticksPerSecond)⌋ < seconds :=
    Int.floor_lt.mpr double
  simp only [totalSeconds, Binary64.round_nonneg lower, ↓reduceIte]
  split <;> omega

private theorem ulp_two {wait : Int} (lower : 2 ^ 53 ≤ wait) (upper : wait < 2 ^ 54) :
    Binary64.ulp wait = 2 := by
  have distance := @Binary64.ulp_of_bounds (wait : ℚ) 53 (by exact_mod_cast lower)
    (by norm_num; exact_mod_cast upper)
  rw [distance]
  norm_num

private theorem ulp_four {wait : Int} (lower : 2 ^ 54 ≤ wait) (upper : wait < 2 ^ 55) :
    Binary64.ulp wait = 4 := by
  have distance := @Binary64.ulp_of_bounds (wait : ℚ) 54 (by exact_mod_cast lower)
    (by norm_num; exact_mod_cast upper)
  rw [distance]
  norm_num

private theorem round_to_second {wait seconds : Int} (fits : wait < 2 ^ 55)
    (near : (2 ^ 53 < wait ∧ wait = seconds * ticksPerSecond - 1) ∨
      (2 ^ 54 < wait ∧ wait = seconds * ticksPerSecond - 2)) :
    Binary64.round wait = (seconds * ticksPerSecond : Int) := by
  have scale : ticksPerSecond = 10000000 := rfl
  rw [scale] at near ⊢
  by_cases low : wait < 2 ^ 54
  · have distance := ulp_two (by omega) low
    have same : wait = seconds * 10000000 - 1 := by omega
    have rounded := @Binary64.round_of_near wait (seconds * 5000000) (by omega)
      (by rw [distance, same]; push_cast; linarith) (by rw [distance, same]; push_cast; linarith)
    rw [rounded, distance]
    push_cast
    ring
  · have distance := ulp_four (not_lt.mp low) fits
    have bounds : (seconds * 10000000 - 2 : ℚ) ≤ wait ∧ (wait : ℚ) ≤ seconds * 10000000 := by
      constructor <;> · norm_cast; omega
    have rounded := @Binary64.round_of_near wait (seconds * 2500000) (by omega)
      (by rw [distance]; push_cast; linarith) (by rw [distance]; push_cast; linarith)
    rw [rounded, distance]
    push_cast
    ring

private theorem totalSeconds_lt_of_exact {wait seconds : Int} (nonneg : 0 ≤ wait)
    (fits : wait ≤ 2 ^ 53) (short : wait ≤ seconds * 10000000 - 1) :
    totalSeconds wait < seconds := by
  have scale : ticksPerSecond = 10000000 := rfl
  have ticks : Binary64.round wait = wait := by
    rcases fits.eq_or_lt with rfl | below
    · exact @Binary64.round_intCast _ 1 (by decide) (by decide)
    · exact @Binary64.round_intCast _ 0 (by omega) (one_dvd _)
  have upper : (wait : ℚ) ≤ 2 ^ 53 := by exact_mod_cast fits
  have margin : (wait : ℚ) ≤ seconds * 10000000 - 1 := by exact_mod_cast short
  apply @totalSeconds_lt wait seconds 29 wait nonneg (by omega) ticks.le
  · rw [scale]
    norm_num
    linarith
  · rw [scale]
    norm_num
    linarith

private theorem totalSeconds_lt_of_even {wait seconds : Int} (large : 2 ^ 53 < wait)
    (fits : wait ≤ 2 ^ 54) (upper : (seconds - 1) * 10000000 < wait)
    (short : wait ≤ seconds * 10000000 - 2) : totalSeconds wait < seconds := by
  have scale : ticksPerSecond = 10000000 := rfl
  have margin : (wait : ℚ) ≤ seconds * 10000000 - 2 := by exact_mod_cast short
  have bound : (seconds : ℚ) ≤ 1801439852 := by
    have : seconds ≤ 1801439852 := by omega
    exact_mod_cast this
  have ticks : Binary64.round wait ≤ seconds * 10000000 - 2 := by
    rcases fits.eq_or_lt with rfl | below
    · rwa [@Binary64.round_intCast _ 2 (by decide) (by decide)]
    · have distance := ulp_two large.le below
      have rounded := @Binary64.round_le wait (seconds * 5000000 - 1) (by
        rw [distance]
        push_cast
        linarith)
      rw [distance] at rounded
      push_cast at rounded
      linarith
  apply @totalSeconds_lt wait seconds 30 (seconds * 10000000 - 2) (by omega) (by omega) ticks
  · rw [scale]
    norm_num
    linarith
  · rw [scale]
    norm_num
    linarith

private theorem totalSeconds_lt_of_four {wait seconds : Int} (large : 2 ^ 54 < wait)
    (fits : wait ≤ 21474836470000000) (upper : (seconds - 1) * 10000000 < wait)
    (short : wait ≤ seconds * 10000000 - 3) : totalSeconds wait < seconds := by
  have scale : ticksPerSecond = 10000000 := rfl
  have margin : (wait : ℚ) ≤ seconds * 10000000 - 3 := by exact_mod_cast short
  have bound : (seconds : ℚ) ≤ 2147483647 := by
    have : seconds ≤ 2147483647 := by omega
    exact_mod_cast this
  have ticks : Binary64.round wait ≤ seconds * 10000000 - 4 := by
    have distance := ulp_four large.le (by omega)
    have rounded := @Binary64.round_le wait (seconds * 2500000 - 1) (by
      rw [distance]
      push_cast
      linarith)
    rw [distance] at rounded
    push_cast at rounded
    linarith
  apply @totalSeconds_lt wait seconds 30 (seconds * 10000000 - 4) (by omega) (by omega) ticks
  · rw [scale]
    norm_num
    linarith
  · rw [scale]
    norm_num
    linarith

/-- A wait lasts in the table as long as it does outside exactly where it is one of these. -/
theorem lasts_iff {wait : Int} (nonneg : 0 ≤ wait) :
    wait ≤ totalSeconds wait * ticksPerSecond ↔ Lasts wait := by
  have scale : ticksPerSecond = 10000000 := rfl
  have bounded := totalSeconds_le wait
  obtain ⟨seconds, rest, upper, short⟩ : ∃ seconds rest : Int, (seconds - 1) * 10000000 < wait ∧
      wait = seconds * 10000000 - rest ∧ 0 ≤ rest := by
    exact ⟨(wait + 9999999) / 10000000, _, by omega, (sub_sub_cancel _ _).symm, by omega⟩
  rw [Lasts, scale]
  constructor
  · intro long
    refine ⟨by omega, ?_⟩
    by_contra cut
    have below : totalSeconds wait < seconds := by
      rcases le_or_gt wait (2 ^ 53) with small | large
      · exact totalSeconds_lt_of_exact nonneg small (by omega)
      rcases le_or_gt wait (2 ^ 54) with middle | huge
      · exact totalSeconds_lt_of_even large middle upper (by omega)
      · exact totalSeconds_lt_of_four huge (by omega) upper (by omega)
    omega
  · rintro ⟨fits, kept⟩
    have stored : totalSeconds wait = seconds := by
      by_cases whole : rest = 0
      · have same : wait = seconds * ticksPerSecond := by
          rw [scale]
          omega
        rw [same]
        exact totalSeconds_of_whole (by omega)
      · apply totalSeconds_of_round (by omega)
        apply round_to_second (by omega)
        rw [scale]
        omega
    omega

inductive StoreOperation (Key : Type) where
  | addJob (jobData : SerializableOddJob)
  | getJobs (call : Claim Key) (scan : List SqlCommonDbOddJobMetaData) (rows : List SqlQueueRowSet)
  | mark (mark : Mark) (jobId : Guid)
  | updateJobMetadataAndParameters (commandData : JobUpdateCommand)
  | updateJobMetadataValues (setters : List (Assignment JobColumn)) (jobGuid : Guid)
      (oldStatusIfRequired : Option String)
  | updateJobMetadataFull (metaDataToUpdate : RowObject) (oldStatusIfRequired : Option String)
  | purgeQueue (purge : Purge)

/-- The tables at some time, with the waits that jobs were added with and the attempts that
were recorded as failed. -/
structure Retrying where
  tables : Tables
  clock : Ticks
  waits : List (Guid × Ticks) := []
  attempts : List (Guid × Ticks) := []

namespace Retrying

variable {Key : Type} [LinearOrder Key]

/-- No row has the id, and nothing was recorded under it. -/
def Fresh (state : Retrying) (jobId : Guid) : Prop :=
  (∀ q ∈ state.tables.queue, q.jobGuid ≠ jobId) ∧ jobId ∉ state.waits.map Prod.fst ∧
    jobId ∉ state.attempts.map Prod.fst

instance (state : Retrying) (jobId : Guid) : Decidable (state.Fresh jobId) :=
  inferInstanceAs (Decidable (_ ∧ _ ∧ _))

/-- The claim has a new guid, and reads what it has claimed. -/
def Fetches (tables : Tables) (call : Claim Key) (scan : List SqlCommonDbOddJobMetaData)
    (rows : List SqlQueueRowSet) : Prop :=
  scan.Perm tables.queue ∧ (∀ q ∈ tables.queue, q.lockGuid ≠ some call.lockGuid) ∧
    Returns (claimTables call scan tables) (fun q => q.lockGuid = some call.lockGuid) rows

instance (tables : Tables) (call : Claim Key) (scan : List SqlCommonDbOddJobMetaData)
    (rows : List SqlQueueRowSet) : Decidable (Fetches tables call scan rows) :=
  inferInstanceAs (Decidable (_ ∧ _ ∧ _))

/-- The failed attempts, with the one that a mark records. -/
def marked (state : Retrying) (jobId : Guid) : Mark → List (Guid × Ticks)
  | .markJobInRetryAndIncrement _ => state.attempts ++ [(jobId, state.clock)]
  | _ => state.attempts

/-- One operation at the time that the state shows. Job ids are used once. -/
def perform (state : Retrying) : StoreOperation Key → Option Retrying
  | .addJob jobData =>
    if state.Fresh jobData.jobId then
      some { state with
        tables := state.tables.addJob jobData state.clock
        waits := state.waits ++ (jobData.retryParameters.map fun retryParameters =>
          (jobData.jobId, retryParameters.minRetryWait)).toList }
    else none
  | .getJobs call scan rows =>
    if call.lockTime = state.clock ∧ Fetches state.tables call scan rows then
      some { state with tables := claimTables call scan state.tables }
    else none
  | .mark mark jobId =>
    some { state with
      tables := mark.apply jobId state.clock state.tables
      attempts := state.marked jobId mark }
  | .updateJobMetadataAndParameters commandData =>
    some { state with tables := (Sql.updateJobMetadataAndParameters commandData state.tables).1 }
  | .updateJobMetadataValues setters jobGuid oldStatusIfRequired =>
    some { state with
      tables := (Sql.updateJobMetadataValues setters jobGuid oldStatusIfRequired state.tables).1 }
  | .updateJobMetadataFull metaDataToUpdate oldStatusIfRequired =>
    some { state with
      tables := (Sql.updateJobMetadataFull metaDataToUpdate oldStatusIfRequired state.tables).1 }
  | .purgeQueue purge =>
    some { state with
      tables := purge.deleteJobs (purge.deleteGenerics (purge.deleteParams state.tables)) }

/-- An operation at some time, which is not before the time of the last one. -/
def step (state : Retrying) (action : Ticks × StoreOperation Key) : Option Retrying :=
  if state.clock ≤ action.1 then { state with clock := action.1 }.perform action.2 else none

/-- What a row becomes does not let its job be tried earlier. -/
structure Later (q edited : SqlCommonDbOddJobMetaData) : Prop where
  jobGuid : edited.jobGuid = q.jobGuid
  status : edited.status = .new → q.status = .new
  minRetryWait : q.minRetryWait ≤ edited.minRetryWait
  lastAttempt : ∀ time ∈ q.lastAttempt, ∃ other ∈ edited.lastAttempt, time ≤ other

/-- The assignments let some job be tried earlier. -/
def Hastens (tables : Tables) (selected : SqlCommonDbOddJobMetaData → Bool)
    (setters : List (Assignment JobColumn)) : Prop :=
  ∃ q ∈ tables.queue, selected q = true ∧ ¬ Later q (assign setters q)

/-- No edit of a job lets it be tried earlier. -/
def Patient (state : Retrying) (action : Ticks × StoreOperation Key) : Prop :=
  match action.2 with
  | .updateJobMetadataAndParameters commandData =>
    ¬ Hastens state.tables commandData.updatable commandData.metadata
  | .updateJobMetadataValues setters jobGuid oldStatusIfRequired =>
    ¬ Hastens state.tables (updatable jobGuid oldStatusIfRequired) setters
  | .updateJobMetadataFull metaDataToUpdate oldStatusIfRequired =>
    ¬ Hastens state.tables (updatable (metaDataToUpdate .jobGuid) oldStatusIfRequired)
      (fullSetters metaDataToUpdate)
  | _ => True

/-- The rows have ids of their own, and the next id is not used. -/
structure Keyed (tables : Tables) : Prop where
  ids : (tables.queue.map SqlCommonDbOddJobMetaData.id).Nodup
  bounded : ∀ q ∈ tables.queue, q.id < tables.nextId

namespace Keyed

variable {tables : Tables}

theorem queue_addJob (keyed : Keyed tables) (jobData : SerializableOddJob) (now : Ticks) :
    (tables.addJob jobData now).queue =
      tables.queue ++ [publishedRow jobData tables.nextId now] := by
  rw [Sql.queue_addJob, updateWhere]
  congr 1
  apply (List.map_congr_left fun q member => ?_).trans (List.map_id _)
  have older : q.id ≠ tables.nextId := ne_of_lt (keyed.bounded q member)
  simp [older]

theorem addJob (keyed : Keyed tables) (jobData : SerializableOddJob) (now : Ticks) :
    Keyed (tables.addJob jobData now) := by
  have next : (tables.addJob jobData now).nextId = tables.nextId + 1 := by
    simp [Tables.addJob, Tables.publish, Tables.insertMetaData]
  have last : (publishedRow jobData tables.nextId now).id = tables.nextId := rfl
  constructor
  · rw [keyed.queue_addJob, List.map_append, List.map_singleton, last,
      ← List.concat_eq_append]
    refine keyed.ids.concat fun used => ?_
    obtain ⟨q, member, same⟩ := List.mem_map.mp used
    exact absurd same (ne_of_lt (keyed.bounded q member))
  · intro q member
    rw [keyed.queue_addJob] at member
    rw [next]
    rcases List.mem_append.mp member with older | newer
    · exact (keyed.bounded q older).trans (lt_add_one _)
    · rw [List.mem_singleton.mp newer, last]
      exact lt_add_one _

end Keyed

namespace Later

theorem refl (q : SqlCommonDbOddJobMetaData) : Later q q where
  jobGuid := rfl
  status new := new
  minRetryWait := le_refl _
  lastAttempt time present := ⟨time, present, le_refl _⟩

omit [LinearOrder Key] in
theorem lock (call : Claim Key) (q : SqlCommonDbOddJobMetaData) : Later q (call.lock q) where
  jobGuid := rfl
  status new := new
  minRetryWait := le_refl _
  lastAttempt time present := ⟨time, present, le_refl _⟩

end Later

/-- No row is added, and those that stay wait at least as long. -/
structure Follows (tables after : Tables) : Prop where
  ids : (after.queue.map SqlCommonDbOddJobMetaData.id).Sublist
    (tables.queue.map SqlCommonDbOddJobMetaData.id)
  nextId : after.nextId = tables.nextId
  later : ∀ q ∈ after.queue, ∃ old ∈ tables.queue, Later old q

namespace Follows

variable {tables after : Tables} {setters : List (Assignment JobColumn)}

theorem refl (tables : Tables) : Follows tables tables where
  ids := List.Sublist.refl _
  nextId := rfl
  later q member := ⟨q, member, Later.refl q⟩

theorem congr (follows : Follows tables after) {others : Tables}
    (queue : others.queue = after.queue) (nextId : others.nextId = after.nextId) :
    Follows tables others where
  ids := queue ▸ follows.ids
  nextId := nextId.trans follows.nextId
  later := queue ▸ follows.later

theorem update {selected : SqlCommonDbOddJobMetaData → Bool}
    {queue : List SqlCommonDbOddJobMetaData} (patient : ¬ Hastens tables selected setters)
    (done : jobDatabase.update selected setters tables.queue = some queue) :
    Follows tables { tables with queue } := by
  have accepted := Database.allowed_of_update done
  obtain ⟨-, rfl⟩ := Database.update_eq_some_iff.mp done
  have kept : ∀ q ∈ tables.queue,
      (if selected q = true then assign setters q else q).id = q.id := by
    intro q member
    split
    · rename_i chosen
      apply get_assign_other JobColumn.id
      intro setter listed
      exact (settable_iff.mp (accepted ⟨q, member, chosen⟩ setter listed)).2
    · rfl
  constructor
  · rw [updateWhere, List.map_map]
    exact (List.map_congr_left kept).symm ▸ List.Sublist.refl _
  · rfl
  · intro q member
    obtain ⟨old, present, rfl⟩ := mem_updateWhere.mp member
    refine ⟨old, present, ?_⟩
    split
    · rename_i chosen
      by_contra sooner
      exact patient ⟨old, present, chosen, sooner⟩
    · exact Later.refl old

private theorem updateParameters (jobGuid : Guid)
    (parameters : List (Int × Option (List (Assignment ParamColumn)))) (tables : Tables) :
    (updateParameters jobGuid parameters tables).1.queue = tables.queue ∧
      (updateParameters jobGuid parameters tables).1.nextId = tables.nextId := by
  fun_induction Sql.updateParameters jobGuid parameters tables with
  | case1 => exact ⟨rfl, rfl⟩
  | case2 => exact ⟨rfl, rfl⟩
  | case3 => assumption
  | case4 => exact ⟨rfl, rfl⟩
  | case5 => assumption
  | case6 => exact ⟨rfl, rfl⟩

theorem updateJobMetadataAndParameters {commandData : JobUpdateCommand}
    (patient : ¬ Hastens tables commandData.updatable commandData.metadata) :
    Follows tables (Sql.updateJobMetadataAndParameters commandData tables).1 := by
  simp only [Sql.updateJobMetadataAndParameters]
  cases given : commandData.setJobMetadata with
  | none => exact refl tables
  | some setters =>
    rw [JobUpdateCommand.metadata, given] at patient
    cases done : updateCommand commandData setters tables.queue with
    | none =>
      simp only [done]
      exact refl tables
    | some queue =>
      have follows : Follows tables { tables with queue } := by
        cases setters with
        | nil => exact (refl tables).congr (Option.some.inj done).symm rfl
        | cons first rest => exact update patient done
      simp only [done]
      split
      · rename_i parameters _ _
        obtain ⟨rows, next⟩ := updateParameters commandData.jobGuid parameters.entries
          { tables with queue }
        exact follows.congr rows next
      · exact follows

theorem updateJobMetadataValues {jobGuid : Guid} {oldStatusIfRequired : Option String}
    (patient : ¬ Hastens tables (updatable jobGuid oldStatusIfRequired) setters) :
    Follows tables
      (Sql.updateJobMetadataValues setters jobGuid oldStatusIfRequired tables).1 := by
  cases setters with
  | nil => exact refl tables
  | cons first rest =>
    simp only [Sql.updateJobMetadataValues]
    split
    · exact refl tables
    · rename_i done
      exact update patient done

theorem updateJobMetadataFull {metaDataToUpdate : RowObject} {oldStatusIfRequired : Option String}
    (patient : ¬ Hastens tables (updatable (metaDataToUpdate .jobGuid) oldStatusIfRequired)
      (fullSetters metaDataToUpdate)) :
    Follows tables (Sql.updateJobMetadataFull metaDataToUpdate oldStatusIfRequired tables).1 := by
  simp only [Sql.updateJobMetadataFull]
  split
  · exact refl tables
  · rename_i done
    exact update patient done

theorem claim (call : Claim Key) (scan : List SqlCommonDbOddJobMetaData) (tables : Tables) :
    Follows tables (claimTables call scan tables) := by
  have kept : (claimTables call scan tables).queue.map SqlCommonDbOddJobMetaData.id =
      tables.queue.map SqlCommonDbOddJobMetaData.id :=
    map_updateWhere _ (by intro _; rfl) _
  refine ⟨kept ▸ List.Sublist.refl _, rfl, ?_⟩
  intro q member
  obtain ⟨old, present, rfl⟩ := mem_updateWhere.mp member
  refine ⟨old, present, ?_⟩
  split
  · exact Later.lock call old
  · exact Later.refl old

theorem purge (purge : Purge) (tables : Tables) :
    Follows tables (purge.deleteJobs (purge.deleteGenerics (purge.deleteParams tables))) where
  ids := List.filter_sublist.map _
  nextId := rfl
  later q member := ⟨q, List.mem_of_mem_filter member, Later.refl q⟩

end Follows

/-- The row is not new any more, and remembers an attempt that is not before this time. -/
structure Tried (time : Ticks) (q : SqlCommonDbOddJobMetaData) : Prop where
  used : q.status ≠ .new
  lastAttempt : ∃ lastAttempt ∈ q.lastAttempt, time ≤ lastAttempt

theorem Tried.later {time : Ticks} {q edited : SqlCommonDbOddJobMetaData} (tried : Tried time q)
    (later : Later q edited) : Tried time edited := by
  obtain ⟨lastAttempt, present, order⟩ := tried.lastAttempt
  obtain ⟨other, known, after⟩ := later.lastAttempt lastAttempt present
  exact ⟨mt later.status tried.used, other, known, order.trans after⟩

/-- A mark moves the last attempt to the present or leaves it. -/
theorem Tried.mark {time now : Ticks} {q : SqlCommonDbOddJobMetaData} (tried : Tried time q)
    (past : time ≤ now) (mark : Mark) : Tried time (mark.set now q) := by
  cases mark with
  | markJobSuccess => exact ⟨JobStates.noConfusion, tried.lastAttempt⟩
  | markJobFailed => exact ⟨JobStates.noConfusion, tried.lastAttempt⟩
  | markJobInProgress => exact ⟨JobStates.noConfusion, now, rfl, past⟩
  | markJobInRetryAndIncrement _ => exact ⟨JobStates.noConfusion, now, rfl, past⟩

/-- The rows of a job wait at least as long as the table says of the wait it was added with,
and remember the attempts that have failed. -/
structure Kept (state : Retrying) : Prop where
  keyed : Keyed state.tables
  waits : ∀ added ∈ state.waits, ∀ q ∈ state.tables.queue, q.jobGuid = added.1 →
    totalSeconds added.2 ≤ q.minRetryWait
  past : ∀ attempt ∈ state.attempts, attempt.2 ≤ state.clock
  attempts : ∀ attempt ∈ state.attempts, ∀ q ∈ state.tables.queue, q.jobGuid = attempt.1 →
    Tried attempt.2 q

namespace Kept

variable {state : Retrying}

theorem later (kept : Kept state) {now : Ticks} (after : state.clock ≤ now) :
    Kept { state with clock := now } :=
  { kept with past := fun attempt member => (kept.past attempt member).trans after }

theorem follow (kept : Kept state) {tables : Tables} (follows : Follows state.tables tables) :
    Kept { state with tables } where
  keyed := by
    refine ⟨kept.keyed.ids.sublist follows.ids, fun q member => ?_⟩
    obtain ⟨old, present, same⟩ := List.mem_map.mp
      (follows.ids.subset (List.mem_map_of_mem member))
    rw [← same, follows.nextId]
    exact kept.keyed.bounded old present
  waits added listed q member guid := by
    obtain ⟨old, present, later⟩ := follows.later q member
    exact (kept.waits added listed old present (later.jobGuid.symm.trans guid)).trans
      later.minRetryWait
  past := kept.past
  attempts attempt listed q member guid := by
    obtain ⟨old, present, later⟩ := follows.later q member
    exact (kept.attempts attempt listed old present (later.jobGuid.symm.trans guid)).later later

private theorem eq_of_marked {mark : Mark} {jobId : Guid} {attempt : Guid × Ticks}
    (listed : attempt ∈ state.marked jobId mark) : attempt ∈ state.attempts ∨
      attempt = (jobId, state.clock) ∧ ∃ time, mark = .markJobInRetryAndIncrement time := by
  cases mark with
  | markJobInRetryAndIncrement time =>
    rcases List.mem_append.mp listed with older | newer
    · exact .inl older
    · exact .inr ⟨List.mem_singleton.mp newer, time, rfl⟩
  | _ => exact .inl listed

theorem mark (kept : Kept state) (mark : Mark) (jobId : Guid) :
    Kept { state with
      tables := mark.apply jobId state.clock state.tables
      attempts := state.marked jobId mark } := by
  rw [mark.apply_eq, updateJob]
  have ids : (updateWhere (fun q => q.jobGuid = jobId) (mark.set state.clock)
      state.tables.queue).map SqlCommonDbOddJobMetaData.id =
        state.tables.queue.map SqlCommonDbOddJobMetaData.id :=
    map_updateWhere _ (mark.set_id _) _
  have rows : ∀ q ∈ updateWhere (fun q => q.jobGuid = jobId) (mark.set state.clock)
      state.tables.queue, ∃ old ∈ state.tables.queue, old.jobGuid = q.jobGuid ∧
        (old.jobGuid = jobId ∧ q = mark.set state.clock old ∨ old.jobGuid ≠ jobId ∧ q = old) := by
    intro q member
    obtain ⟨old, present, rfl⟩ := mem_updateWhere.mp member
    refine ⟨old, present, ?_⟩
    by_cases own : old.jobGuid = jobId <;> simp [own]
  refine ⟨⟨ids ▸ kept.keyed.ids, ?_⟩, ?_, ?_, ?_⟩
  · intro q member
    obtain ⟨old, present, same⟩ := List.mem_map.mp (ids ▸ List.mem_map_of_mem member)
    exact same ▸ kept.keyed.bounded old present
  · intro added listed q member guid
    obtain ⟨old, present, same, ⟨_, rfl⟩ | ⟨_, rfl⟩⟩ := rows q member
    · rw [mark.set_minRetryWait]
      exact kept.waits added listed old present (same.trans guid)
    · exact kept.waits added listed q present guid
  · intro attempt listed
    rcases eq_of_marked listed with older | ⟨rfl, _⟩
    · exact kept.past attempt older
    · exact le_refl state.clock
  · intro attempt listed q member guid
    obtain ⟨old, present, same, row⟩ := rows q member
    rcases eq_of_marked listed with older | ⟨rfl, time, rfl⟩
    · have tried := kept.attempts attempt older old present (same.trans guid)
      rcases row with ⟨_, rfl⟩ | ⟨_, rfl⟩
      · exact tried.mark (kept.past attempt older) mark
      · exact tried
    · rcases row with ⟨_, rfl⟩ | ⟨other, _⟩
      · exact ⟨JobStates.noConfusion, state.clock, rfl, le_refl state.clock⟩
      · exact absurd (same.trans guid) other

/-- The row of a new job has its wait, and takes nothing from the others. -/
theorem addJob (kept : Kept state) {jobData : SerializableOddJob}
    (fresh : state.Fresh jobData.jobId) :
    Kept { state with
      tables := state.tables.addJob jobData state.clock
      waits := state.waits ++ (jobData.retryParameters.map fun retryParameters =>
        (jobData.jobId, retryParameters.minRetryWait)).toList } := by
  obtain ⟨unused, unknown, untried⟩ := fresh
  have rows : ∀ q ∈ (state.tables.addJob jobData state.clock).queue,
      q ∈ state.tables.queue ∨ q = publishedRow jobData state.tables.nextId state.clock := by
    intro q member
    rw [kept.keyed.queue_addJob] at member
    exact (List.mem_append.mp member).imp_right List.mem_singleton.mp
  refine ⟨kept.keyed.addJob jobData state.clock, ?_, kept.past, ?_⟩
  · intro added listed q member guid
    rcases List.mem_append.mp listed with older | newer
    · rcases rows q member with known | rfl
      · exact kept.waits added older q known guid
      · have same : added.1 = jobData.jobId := guid.symm
        exact absurd (same ▸ List.mem_map_of_mem older) unknown
    · obtain ⟨retryParameters, given, rfl⟩ := Option.map_eq_some_iff.mp (Option.mem_toList.mp newer)
      rcases rows q member with known | rfl
      · exact absurd guid (unused q known)
      · simp [publishedRow, getMetaDataForJob, given]
  · intro attempt listed q member guid
    rcases rows q member with known | rfl
    · exact kept.attempts attempt listed q known guid
    · have same : attempt.1 = jobData.jobId := guid.symm
      exact absurd (same ▸ List.mem_map_of_mem listed) untried

/-- No operation forgets a failed attempt or its wait, unless an edit does. -/
theorem step {action : Ticks × StoreOperation Key} {after : Retrying} (kept : Kept state)
    (patient : Patient state action) (taken : state.step action = some after) : Kept after := by
  obtain ⟨now, operation⟩ := action
  simp only [Retrying.step] at taken
  split at taken
  · rename_i order
    have moved := kept.later order
    cases operation with
    | addJob jobData =>
      simp only [perform] at taken
      split at taken
      · rename_i fresh
        cases taken
        exact moved.addJob fresh
      · cases taken
    | getJobs call scan rows =>
      simp only [perform] at taken
      split at taken
      · cases taken
        exact moved.follow (.claim call scan state.tables)
      · cases taken
    | mark mark jobId =>
      cases taken
      exact moved.mark mark jobId
    | updateJobMetadataAndParameters commandData =>
      cases taken
      exact moved.follow (.updateJobMetadataAndParameters patient)
    | updateJobMetadataValues setters jobGuid oldStatusIfRequired =>
      cases taken
      exact moved.follow (.updateJobMetadataValues patient)
    | updateJobMetadataFull metaDataToUpdate oldStatusIfRequired =>
      cases taken
      exact moved.follow (.updateJobMetadataFull patient)
    | purgeQueue purge =>
      cases taken
      exact moved.follow (.purge purge state.tables)
  · cases taken

theorem of_reaches {tables : Tables} {clock : Ticks} (keyed : Keyed tables)
    (reached : Reaches (@Retrying.step Key _) Patient { tables, clock } state) : Kept state := by
  apply reached.invariant
  · exact ⟨keyed, by simp, by simp, by simp⟩
  · exact fun before action after kept patient taken => kept.step patient taken

end Kept

section Fetched

variable {CliType Value : Type} {state : Retrying} {decoder : Decoder CliType Value}
  {call : Claim Key} {scan : List SqlCommonDbOddJobMetaData} {rows : List SqlQueueRowSet}
  {jobs : List (SqlDbOddJob CliType Value)} {job : SqlDbOddJob CliType Value}

theorem exists_eligible {tables : Tables} (keyed : Keyed tables)
    (fetches : Fetches tables call scan rows)
    (done : (getJobs decoder call scan rows tables).2 = .ok jobs) (member : job ∈ jobs) :
    ∃ q ∈ tables.queue, q.jobGuid = job.jobId ∧ call.Eligible q := by
  obtain ⟨order, fresh, returned⟩ := fetches
  have listed : job.jobId ∈ (decodings decoder rows).map Prod.fst :=
    decoder.fetchedIds_eq done ▸ List.mem_map_of_mem member
  rw [decodings_keys, mem_distinct] at listed
  obtain ⟨row, found, guid⟩ := List.mem_map.mp listed
  have selected := (mem_joinQuery.mp (returned.mem_iff.mp found)).1
  obtain ⟨present, locked⟩ := List.mem_filter.mp selected
  rw [claimTables, Claim.update_eq] at present
  obtain ⟨q, known, same⟩ := List.mem_map.mp present
  have guids : q.jobGuid = job.jobId := by
    rw [← guid, ← same]
    split <;> rfl
  refine ⟨q, known, guids, ?_⟩
  by_cases taken : call.Takes scan q
  · exact Claim.eligible_iff.mp (call.eligible_of_takes order keyed.ids known taken)
  · rw [if_neg taken] at same
    exact absurd (same ▸ of_decide_eq_true locked) (fresh q known)

/-- A job that has failed is not fetched before its stored wait is over. -/
theorem Kept.waited (kept : Kept state) (fetches : Fetches state.tables call scan rows)
    (done : (getJobs decoder call scan rows state.tables).2 = .ok jobs) (member : job ∈ jobs)
    {wait time : Ticks} (added : (job.jobId, wait) ∈ state.waits)
    (attempt : (job.jobId, time) ∈ state.attempts) :
    time + totalSeconds wait * ticksPerSecond ≤ call.lockTime := by
  obtain ⟨q, present, guid, eligible⟩ := exists_eligible kept.keyed fetches done member
  have stored := kept.waits _ added q present guid
  obtain ⟨used, lastAttempt, known, after⟩ := kept.attempts _ attempt q present guid
  rcases eligible.waiting with new | ⟨-, -, other, same, due⟩
  · exact absurd new used
  · obtain rfl : lastAttempt = other := Option.some.inj (known.symm.trans same)
    have scaled : totalSeconds wait * ticksPerSecond ≤ q.minRetryWait * ticksPerSecond :=
      mul_le_mul_of_nonneg_right stored (by decide)
    exact (add_le_add after scaled).trans due

end Fetched

end Retrying

/-- In every run without hasty edits, no fetch returns a job with this wait before the wait is
over after each failed attempt. -/
def KeptBack (wait : Ticks) : Prop :=
  ∀ (Key CliType Value : Type) [LinearOrder Key] (decoder : Decoder CliType Value)
    (tables : Tables) (clock : Ticks) (state : Retrying),
    Retrying.Keyed tables →
    Reaches (@Retrying.step Key _) Retrying.Patient { tables, clock } state →
    ∀ (call : Claim Key) scan rows jobs, state.clock ≤ call.lockTime →
      Retrying.Fetches state.tables call scan rows →
      (getJobs decoder call scan rows state.tables).2 = .ok jobs →
      ∀ job ∈ jobs, ∀ time, (job.jobId, wait) ∈ state.waits →
        (job.jobId, time) ∈ state.attempts → time + wait ≤ call.lockTime

theorem keptBack_of_lasts {wait : Int} (nonneg : 0 ≤ wait) (lasts : Lasts wait) :
    KeptBack wait := by
  intro Key CliType Value _ decoder tables clock state keyed reached call scan rows jobs _ fetches
    done job member time added attempt
  have kept := Retrying.Kept.of_reaches keyed reached
  have stored := (lasts_iff nonneg).mpr lasts
  have waited := kept.waited fetches done member added attempt
  exact (add_le_add_right stored time).trans waited

def hastyJob (minRetryWait : Ticks) : SerializableOddJob where
  jobId := 7
  jobArgs := []
  typeExecutedOn := "Jobs.SampleJob, Jobs"
  methodName := "Add"
  status := .new
  methodGenericTypes := []
  retryParameters := some { maxRetries := 1, minRetryWait }
  executionTime := none
  queueName := "default"

def waitingRow (minRetryWait : Ticks) : SqlCommonDbOddJobMetaData :=
  { publishedRow (hastyJob minRetryWait) 1 0 with
    retryCount := 1
    status := .retry
    lastAttempt := some 0 }

def waitingState (minRetryWait : Ticks) : Retrying where
  tables := { queue := [waitingRow minRetryWait], nextId := 2 }
  clock := 0
  waits := [(7, minRetryWait)]
  attempts := [(7, 0)]

def hastyClaim (minRetryWait : Ticks) : Claim Int where
  queueNames := ["default"]
  fetchSize := 1
  orderPredicate q := q.jobId
  lockGuid := 40
  lockTime := max 0 (totalSeconds minRetryWait * ticksPerSecond)
  jobClaimLockTimeoutInSeconds := defaultJobClaimLockTimeoutInSeconds

private theorem waitingState_reached (wait : Ticks) :
    Reaches (@Retrying.step Int _) Retrying.Patient { tables := {}, clock := 0 }
      (waitingState wait) := by
  have added : @Retrying.step Int _ { tables := {}, clock := 0 } (0, .addJob (hastyJob wait)) =
      some { tables := { queue := [publishedRow (hastyJob wait) 1 0], nextId := 2 }, clock := 0,
             waits := [(7, wait)] } := rfl
  have failed : @Retrying.step Int _
      { tables := { queue := [publishedRow (hastyJob wait) 1 0], nextId := 2 }, clock := 0,
        waits := [(7, wait)] } (0, .mark (.markJobInRetryAndIncrement 0) 7) =
      some (waitingState wait) := rfl
  refine .next (.next .refl ?_ added) ?_ failed
  · trivial
  · trivial

private theorem hastyClaim_takes (wait : Ticks) :
    (hastyClaim wait).Takes [waitingRow wait] (waitingRow wait) := by
  have eligible : (hastyClaim wait).eligible (waitingRow wait) = true := by
    rw [Claim.eligible_iff]
    refine ⟨List.mem_cons_self, nofun, .inr ⟨rfl, le_refl (1 : Int), 0, rfl, ?_⟩, nofun⟩
    exact (zero_add _).trans_le (le_max_right _ _)
  rw [Claim.Takes, Claim.lockingCheckQuery_eq, List.filter_cons_of_pos eligible]
  rfl

theorem hasty_fetch (wait : Ticks) : ∃ rows jobs,
    Retrying.Fetches (waitingState wait).tables (hastyClaim wait) [waitingRow wait] rows ∧
    (getJobs (textDecoder fun _ => true) (hastyClaim wait) [waitingRow wait] rows
      (waitingState wait).tables).2 = .ok jobs ∧ ∃ job ∈ jobs, job.jobId = 7 := by
  have fresh : ∀ q ∈ (waitingState wait).tables.queue,
      q.lockGuid ≠ some (hastyClaim wait).lockGuid := by
    intro q member
    rw [List.mem_singleton.mp member]
    exact nofun
  have guids : ((waitingState wait).tables.queue.map
      SqlCommonDbOddJobMetaData.jobGuid).Nodup := List.nodup_singleton _
  have reads : ∀ row ∈ (waitingState wait).tables.queue,
      (hastyClaim wait).Takes [waitingRow wait] row →
      (textDecoder fun _ => true).Reads (waitingState wait).tables row :=
    fun row _ _ => ⟨⟨_, rfl⟩, fun _ none => absurd none List.not_mem_nil,
      fun _ none => absurd none List.not_mem_nil⟩
  obtain ⟨jobs, done, same⟩ := getJobs_of_reads guids fresh (List.Perm.refl _) reads
  refine ⟨_, jobs, ⟨List.Perm.refl _, fresh, List.Perm.refl _⟩, done, ?_⟩
  have listed : 7 ∈ jobs.map SqlDbOddJob.jobId := by
    apply same.mem_iff.mpr
    exact List.mem_map.mpr ⟨waitingRow wait, List.mem_filter.mpr
      ⟨List.mem_cons_self, decide_eq_true (hastyClaim_takes wait)⟩, rfl⟩
  exact List.mem_map.mp listed

theorem stored_wait_of_keptBack {wait : Int} (keptBack : KeptBack wait) :
    wait ≤ max 0 (totalSeconds wait * ticksPerSecond) := by
  obtain ⟨rows, jobs, fetches, done, job, member, same⟩ := hasty_fetch wait
  have keyed : Retrying.Keyed {} := ⟨List.nodup_nil, by simp⟩
  have present : (waitingState wait).clock ≤ (hastyClaim wait).lockTime := le_max_left _ _
  have waited := keptBack Int String String (textDecoder fun _ => true) {} 0 (waitingState wait)
    keyed (waitingState_reached wait) (hastyClaim wait) _ rows jobs present fetches done job member 0
  have added : (job.jobId, wait) ∈ (waitingState wait).waits := same ▸ List.mem_cons_self
  have failed : (job.jobId, 0) ∈ (waitingState wait).attempts := same ▸ List.mem_cons_self
  exact (zero_add wait).ge.trans (waited added failed)

/-- A wait is kept exactly where it is a number of seconds that an `int` holds, or so near to one
that the double of its ticks is. -/
theorem keptBack_iff {wait : Int} (nonneg : 0 ≤ wait) : KeptBack wait ↔ Lasts wait := by
  refine ⟨fun keptBack => ?_, keptBack_of_lasts nonneg⟩
  rw [← lasts_iff nonneg]
  have stored := stored_wait_of_keptBack keptBack
  rcases le_total 0 (totalSeconds wait * ticksPerSecond) with long | negative
  · rwa [max_eq_right long] at stored
  · rw [max_eq_left negative] at stored
    obtain rfl := le_antisymm stored nonneg
    exact (lasts_iff le_rfl).mpr ⟨by decide, .inl rfl⟩

theorem keptBack_iff_of_minute : KeptBack (60 * ticksPerSecond) :=
  (keptBack_iff (by decide)).mpr ⟨by decide, .inl (by decide)⟩

/-- A wait of a second and a half becomes one second. -/
theorem not_keptBack_of_fraction : ¬ KeptBack 15000000 := by
  intro keptBack
  have stored := stored_wait_of_keptBack keptBack
  have short : ¬ Lasts 15000000 := by
    simp [Lasts, ticksPerSecond]
  rw [← lasts_iff (by decide)] at short
  omega

end OddJob.Sql
