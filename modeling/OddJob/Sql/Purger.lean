import OddJob.Lib.Transition
import OddJob.Sql.Fetch
import OddJob.Sql.Update

/-! `BaseSqlJobQueuePurger.PurgeQueue`: three `DELETE` statements, each of which looks for the
jobs to purge again, among the statements of other clients. -/

namespace OddJob.Sql

open Linq Transition

variable {Key : Type} [LinearOrder Key]

/-- The arguments of `PurgeQueue`. -/
structure Purge where
  name : String
  stateToPurge : String
  purgeOlderThan : Ticks

namespace Purge

variable (purge : Purge)

/-- `r.Status == stateToPurge && r.CreatedDate < purgeOlderThan && r.QueueName == name` -/
def selects (r : SqlCommonDbOddJobMetaData) : Bool :=
  r.status.text = purge.stateToPurge && r.createdDate.any (· < purge.purgeOlderThan) &&
    r.queueName = purge.name

/-- The sub-query of the first two statements. -/
def jobGuids (tables : Tables) : List Guid :=
  (tables.queue.filter purge.selects).map SqlCommonDbOddJobMetaData.jobGuid

def deleteParams (tables : Tables) : Tables :=
  { tables with params := tables.params.filter fun q => q.jobGuid ∉ purge.jobGuids tables }

def deleteGenerics (tables : Tables) : Tables :=
  { tables with generics := tables.generics.filter fun q => q.jobGuid ∉ purge.jobGuids tables }

def deleteJobs (tables : Tables) : Tables :=
  { tables with queue := tables.queue.filter fun r => !purge.selects r }

end Purge

/-- How far a purge has come. -/
inductive PurgePoint where
  | started
  | paramsDeleted
  | genericsDeleted
  | finished
  deriving DecidableEq, Repr

/-- The tables under a purge, with what each `DELETE` selected and what was read since. -/
structure Purging where
  tables : Tables
  point : PurgePoint := .started
  paramsOf : List Guid := []
  genericsOf : List Guid := []
  jobsOf : List Guid := []
  /-- the jobs that were selected at some time before the last `DELETE` -/
  selected : List Guid := []
  reads : List (List SqlQueueRowSet) := []

inductive PurgeAction (Key : Type) where
  | deleteParams
  | deleteGenerics
  | deleteJobs
  | claim (call : Claim Key) (scan : List SqlCommonDbOddJobMetaData)
  | read (lockGuid : Guid) (rows : List SqlQueueRowSet)
  | mark (mark : Mark) (jobId : Guid) (now : Ticks)
  | update (commandData : JobUpdateCommand)

/-- The command names no parameter and does not give the job another guid. -/
def JobUpdateCommand.metadataOnly (commandData : JobUpdateCommand) : Bool :=
  commandData.setJobParameters.isNone && commandData.metadata.all fun setter => setter.1 ≠ .jobGuid

namespace Purging

variable (purge : Purge)

/-- One statement of the purge or of another client. -/
def act (state : Purging) : PurgeAction Key → Option Purging
  | .deleteParams =>
    if state.point = .started then
      some { state with
        tables := purge.deleteParams state.tables
        point := .paramsDeleted
        paramsOf := purge.jobGuids state.tables }
    else none
  | .deleteGenerics =>
    if state.point = .paramsDeleted then
      some { state with
        tables := purge.deleteGenerics state.tables
        point := .genericsDeleted
        genericsOf := purge.jobGuids state.tables }
    else none
  | .deleteJobs =>
    if state.point = .genericsDeleted then
      some { state with
        tables := purge.deleteJobs state.tables
        point := .finished
        jobsOf := purge.jobGuids state.tables }
    else none
  | .claim call scan =>
    if scan.Perm state.tables.queue then
      some { state with tables := claimTables call scan state.tables }
    else none
  | .read lockGuid rows =>
    if Returns state.tables (fun q => q.lockGuid = some lockGuid) rows then
      some { state with reads := state.reads ++ [rows] }
    else none
  | .mark mark jobId now => some { state with tables := mark.apply jobId now state.tables }
  | .update commandData =>
    if commandData.metadataOnly then
      some { state with tables := (updateJobMetadataAndParameters commandData state.tables).1 }
    else none

/-- Remember which jobs are selected now. -/
def watch (state : Purging) : Purging :=
  if state.point = .finished then state
  else { state with selected := state.selected ++ purge.jobGuids state.tables }

def step (state : Purging) (action : PurgeAction Key) : Option Purging :=
  (state.watch purge).act purge action

end Purging

/-- No table has a row of the job. -/
structure Gone (tables : Tables) (jobGuid : Guid) : Prop where
  queue : ∀ q ∈ tables.queue, q.jobGuid ≠ jobGuid
  params : ∀ p ∈ tables.params, p.jobGuid ≠ jobGuid
  generics : ∀ g ∈ tables.generics, g.jobGuid ≠ jobGuid

/-- The job is there, with every parameter and generic row it had. -/
structure Intact (start tables : Tables) (jobGuid : Guid) : Prop where
  queue : ∃ q ∈ tables.queue, q.jobGuid = jobGuid
  params : (tables.params.filter fun p => p.jobGuid = jobGuid) =
    start.params.filter fun p => p.jobGuid = jobGuid
  generics : (tables.generics.filter fun g => g.jobGuid = jobGuid) =
    start.generics.filter fun g => g.jobGuid = jobGuid

/-- What a purge promises about the jobs that were there when it started. -/
structure Promises (start : Tables) (state : Purging) : Prop where
  whole : state.point = .finished → ∀ q ∈ start.queue,
    Gone state.tables q.jobGuid ∨ Intact start state.tables q.jobGuid
  untouched : ∀ q ∈ start.queue, q.jobGuid ∉ state.selected →
    Intact start state.tables q.jobGuid
  reads : ∀ rows ∈ state.reads, ∀ row ∈ rows, ∀ p ∈ start.params,
    p.jobGuid = row.metaData.jobGuid → ∃ other ∈ rows, other.metaData = row.metaData ∧
      other.paramData = p
  returned : ∀ rows ∈ state.reads, ∀ {CliType Value : Type} (decoder : Decoder CliType Value) jobs,
    toList (executeJoinQuery decoder rows) = .ok jobs → ∀ job ∈ jobs, ∀ p ∈ start.params,
      p.jobGuid = job.jobId → p.serializedType.isSome = true → ∃ arg ∈ job.jobArgs,
        ∃ row ∈ rows, row.metaData.jobGuid = job.jobId ∧
          row.paramData.paramOrdinal = p.paramOrdinal ∧ decoder.param row.paramData = .ok arg

namespace Purging

def HasParams (start : Tables) (jobGuid : Guid) : Prop := ∃ p ∈ start.params, p.jobGuid = jobGuid

def HasGenerics (start : Tables) (jobGuid : Guid) : Prop :=
  ∃ g ∈ start.generics, g.jobGuid = jobGuid

/-- The last `DELETE` selects what the first ones selected, as far as these had anything to
delete; and no fetch reads a job whose parameters the first one selected. -/
def Consistent (purge : Purge) (start : Tables) (state : Purging) : PurgeAction Key → Prop
  | .deleteJobs => ∀ q ∈ state.tables.queue,
    (HasParams start q.jobGuid → (q.jobGuid ∈ state.paramsOf ↔ purge.selects q = true)) ∧
    (HasGenerics start q.jobGuid → (q.jobGuid ∈ state.genericsOf ↔ purge.selects q = true))
  | .read lockGuid _ => ∀ q ∈ state.tables.queue, q.lockGuid = some lockGuid →
    HasParams start q.jobGuid → q.jobGuid ∉ state.paramsOf
  | _ => True

instance (start : Tables) (jobGuid : Guid) : Decidable (HasParams start jobGuid) :=
  inferInstanceAs (Decidable (∃ p ∈ start.params, p.jobGuid = jobGuid))

instance (start : Tables) (jobGuid : Guid) : Decidable (HasGenerics start jobGuid) :=
  inferInstanceAs (Decidable (∃ g ∈ start.generics, g.jobGuid = jobGuid))

instance (purge : Purge) (start : Tables) (state : Purging) (action : PurgeAction Key) :
    Decidable (Consistent purge start state action) :=
  match action with
  | .deleteJobs => inferInstanceAs (Decidable (∀ q ∈ state.tables.queue, _ ∧ _))
  | .read lockGuid _ => inferInstanceAs (Decidable (∀ q ∈ state.tables.queue,
      q.lockGuid = some lockGuid → HasParams start q.jobGuid → q.jobGuid ∉ state.paramsOf))
  | .deleteParams | .deleteGenerics | .claim _ _ | .mark _ _ _ | .update _ => .isTrue trivial

end Purging

namespace Purging

variable {purge : Purge} {start : Tables} {state after : Purging} {action : PurgeAction Key}

/-- The ways a step can go; other clients change neither guids nor child rows. -/
inductive Moves (purge : Purge) (state : Purging) : PurgeAction Key → Purging → Prop where
  | paramsDeleted (point : state.point = .started) : Moves purge state .deleteParams { state with
      tables := purge.deleteParams state.tables
      point := .paramsDeleted
      paramsOf := purge.jobGuids state.tables }
  | genericsDeleted (point : state.point = .paramsDeleted) :
      Moves purge state .deleteGenerics { state with
        tables := purge.deleteGenerics state.tables
        point := .genericsDeleted
        genericsOf := purge.jobGuids state.tables }
  | jobsDeleted (point : state.point = .genericsDeleted) : Moves purge state .deleteJobs { state with
      tables := purge.deleteJobs state.tables
      point := .finished
      jobsOf := purge.jobGuids state.tables }
  | read (lockGuid : Guid) (rows : List SqlQueueRowSet)
      (returned : Returns state.tables (fun q => q.lockGuid = some lockGuid) rows) :
      Moves purge state (.read lockGuid rows) { state with reads := state.reads ++ [rows] }
  | changed (action : PurgeAction Key) (tables : Tables)
      (guids : tables.queue.map SqlCommonDbOddJobMetaData.jobGuid =
        state.tables.queue.map SqlCommonDbOddJobMetaData.jobGuid)
      (params : tables.params = state.tables.params)
      (generics : tables.generics = state.tables.generics) :
      Moves purge state action { state with tables }

private theorem guids_update {commandData : JobUpdateCommand} {setters : List (Assignment JobColumn)}
    (keeps : ∀ setter ∈ setters, setter.1 ≠ .jobGuid)
    {queue after : List SqlCommonDbOddJobMetaData}
    (updated : updateCommand commandData setters queue = some after) :
    after.map SqlCommonDbOddJobMetaData.jobGuid = queue.map SqlCommonDbOddJobMetaData.jobGuid := by
  cases setters with
  | nil => exact congrArg _ (Option.some.inj updated).symm
  | cons first rest => exact Database.get_update keeps updated

theorem metadataOnly_update {commandData : JobUpdateCommand}
    (only : commandData.metadataOnly = true) (tables : Tables) :
    let after := (updateJobMetadataAndParameters commandData tables).1
    after.queue.map SqlCommonDbOddJobMetaData.jobGuid =
        tables.queue.map SqlCommonDbOddJobMetaData.jobGuid ∧
      after.params = tables.params ∧ after.generics = tables.generics := by
  simp only [JobUpdateCommand.metadataOnly, Bool.and_eq_true, Option.isNone_iff_eq_none,
    JobUpdateCommand.metadata] at only
  obtain ⟨none, keeps⟩ := only
  simp only [updateJobMetadataAndParameters, none]
  cases given : commandData.setJobMetadata with
  | none => exact ⟨rfl, rfl, rfl⟩
  | some setters =>
    have keeps : ∀ setter ∈ setters, setter.1 ≠ .jobGuid := by simpa [given] using keeps
    cases updated : updateCommand commandData setters tables.queue with
    | none => simp only [updated, and_self]
    | some queue =>
      simp only [updated]
      cases tables.queue.any commandData.updatable <;>
        exact ⟨guids_update keeps updated, rfl, rfl⟩

theorem moves_of_act (taken : state.act purge action = some after) :
    Moves purge state action after := by
  cases action with
  | deleteParams =>
    obtain ⟨point, same⟩ := Option.ite_none_right_eq_some.mp taken
    exact Option.some.inj same ▸ .paramsDeleted point
  | deleteGenerics =>
    obtain ⟨point, same⟩ := Option.ite_none_right_eq_some.mp taken
    exact Option.some.inj same ▸ .genericsDeleted point
  | deleteJobs =>
    obtain ⟨point, same⟩ := Option.ite_none_right_eq_some.mp taken
    exact Option.some.inj same ▸ .jobsDeleted point
  | claim call scan =>
    obtain ⟨_, same⟩ := Option.ite_none_right_eq_some.mp taken
    refine Option.some.inj same ▸ .changed _ _ ?_ rfl rfl
    exact map_updateWhere _ (by intro _; rfl) _
  | read lockGuid rows =>
    obtain ⟨returned, same⟩ := Option.ite_none_right_eq_some.mp taken
    exact Option.some.inj same ▸ .read lockGuid rows returned
  | mark mark jobId now =>
    refine Option.some.inj taken ▸ .changed _ _ ?_ ?_ ?_
    · rw [mark.apply_eq]
      exact map_updateWhere _ (by intro _; simp) _
    · rw [mark.apply_eq]
      rfl
    · rw [mark.apply_eq]
      rfl
  | update commandData =>
    obtain ⟨only, same⟩ := Option.ite_none_right_eq_some.mp taken
    obtain ⟨guids, params, generics⟩ := metadataOnly_update only state.tables
    exact Option.some.inj same ▸ .changed _ _ guids params generics

private theorem mem_jobGuids_iff {tables : Tables} {q : SqlCommonDbOddJobMetaData}
    (guids : (tables.queue.map SqlCommonDbOddJobMetaData.jobGuid).Nodup) (member : q ∈ tables.queue) :
    q.jobGuid ∈ purge.jobGuids tables ↔ purge.selects q = true := by
  rw [Purge.jobGuids, List.mem_map]
  constructor
  · rintro ⟨row, chosen, same⟩
    obtain ⟨present, passes⟩ := List.mem_filter.mp chosen
    exact List.inj_on_of_nodup_map guids present member same ▸ passes
  · exact fun passes => ⟨q, List.mem_filter.mpr ⟨member, passes⟩, rfl⟩

/-- The tables are those at the start without what the statements deleted, and the last
statement deleted the jobs whose child rows were deleted. -/
structure Valid (start : Tables) (state : Purging) : Prop where
  guids : state.tables.queue.map SqlCommonDbOddJobMetaData.jobGuid =
    (start.queue.map SqlCommonDbOddJobMetaData.jobGuid).filter fun guid => guid ∉ state.jobsOf
  params : state.tables.params = start.params.filter fun p => p.jobGuid ∉ state.paramsOf
  generics : state.tables.generics = start.generics.filter fun g => g.jobGuid ∉ state.genericsOf
  noParams : state.point = .started → state.paramsOf = []
  noGenerics : state.point = .started ∨ state.point = .paramsDeleted → state.genericsOf = []
  noJobs : state.point ≠ .finished → state.jobsOf = []
  selected : ∀ guid, guid ∈ state.paramsOf ∨ guid ∈ state.genericsOf ∨ guid ∈ state.jobsOf →
    guid ∈ state.selected
  consistent : state.point = .finished → ∀ q ∈ start.queue,
    (HasParams start q.jobGuid → (q.jobGuid ∈ state.paramsOf ↔ q.jobGuid ∈ state.jobsOf)) ∧
    (HasGenerics start q.jobGuid → (q.jobGuid ∈ state.genericsOf ↔ q.jobGuid ∈ state.jobsOf))
  reads : ∀ rows ∈ state.reads, ∀ row ∈ rows, ∀ p ∈ start.params,
    p.jobGuid = row.metaData.jobGuid → ∃ other ∈ rows, other.metaData = row.metaData ∧
      other.paramData = p

theorem valid_start (start : Tables) : Valid start { tables := start } where
  guids := by simp
  params := by simp
  generics := by simp
  noParams _ := rfl
  noGenerics _ := rfl
  noJobs _ := rfl
  selected _ member := by simp at member
  consistent finished := by cases finished
  reads _ member := by cases member

private theorem Valid.distinct_guids (valid : Valid start state)
    (distinct : (start.queue.map SqlCommonDbOddJobMetaData.jobGuid).Nodup) :
    (state.tables.queue.map SqlCommonDbOddJobMetaData.jobGuid).Nodup := by
  rw [valid.guids]
  exact distinct.filter _

private theorem Valid.read (valid : Valid start state) {lockGuid : Guid} {rows : List SqlQueueRowSet}
    (kept : ∀ q ∈ state.tables.queue, q.lockGuid = some lockGuid → HasParams start q.jobGuid →
      q.jobGuid ∉ state.paramsOf)
    (returned : Returns state.tables (fun q => q.lockGuid = some lockGuid) rows) :
    ∀ row ∈ rows, ∀ p ∈ start.params, p.jobGuid = row.metaData.jobGuid →
      ∃ other ∈ rows, other.metaData = row.metaData ∧ other.paramData = p := by
  intro row member p stored own
  have chosen := (mem_joinQuery.mp (returned.mem_iff.mp member)).1
  obtain ⟨present, locked⟩ := List.mem_filter.mp chosen
  have left := kept row.metaData present (of_decide_eq_true locked) ⟨p, stored, own⟩
  have there : p ∈ state.tables.params := by
    rw [valid.params, List.mem_filter, decide_eq_true_eq, own]
    exact ⟨stored, left⟩
  obtain ⟨other, joined, same, param⟩ := exists_mem_joinQuery_param chosen there own
  exact ⟨other, returned.mem_iff.mpr joined, same, param⟩

private theorem Valid.jobsDeleted (valid : Valid start state)
    (distinct : (start.queue.map SqlCommonDbOddJobMetaData.jobGuid).Nodup)
    (point : state.point = .genericsDeleted)
    (consistent : ∀ q ∈ state.tables.queue,
      (HasParams start q.jobGuid → (q.jobGuid ∈ state.paramsOf ↔ purge.selects q = true)) ∧
      (HasGenerics start q.jobGuid → (q.jobGuid ∈ state.genericsOf ↔ purge.selects q = true)))
    (recorded : ∀ guid ∈ purge.jobGuids state.tables, guid ∈ state.selected) :
    Valid start { state with
      tables := purge.deleteJobs state.tables
      point := .finished
      jobsOf := purge.jobGuids state.tables } := by
  have guids := valid.distinct_guids distinct
  have none := valid.noJobs (by simp [point])
  have all : state.tables.queue.map SqlCommonDbOddJobMetaData.jobGuid =
      start.queue.map SqlCommonDbOddJobMetaData.jobGuid := by
    rw [valid.guids, none]
    simp
  refine { valid with
    guids := ?_
    noParams := ?_
    noGenerics := ?_
    noJobs := ?_
    selected := ?_
    consistent := ?_ }
  · rw [← all, List.filter_map]
    apply congrArg
    apply List.filter_congr
    intro q member
    rw [Function.comp_apply, ← Bool.coe_iff_coe]
    simp [mem_jobGuids_iff guids member]
  · rintro ⟨⟩
  · rintro (⟨⟨⟩⟩ | ⟨⟨⟩⟩)
  · exact fun unfinished => absurd rfl unfinished
  · rintro guid (params | generics | jobs)
    · exact valid.selected guid (.inl params)
    · exact valid.selected guid (.inr (.inl generics))
    · exact recorded guid jobs
  · intro _ q member
    have listed : q.jobGuid ∈ state.tables.queue.map SqlCommonDbOddJobMetaData.jobGuid :=
      all ▸ List.mem_map_of_mem member
    obtain ⟨row, present, same⟩ := List.mem_map.mp listed
    have own := consistent row present
    rw [← mem_jobGuids_iff guids present, same] at own
    exact own

omit [LinearOrder Key] in
theorem Valid.moves (valid : Valid start state)
    (distinct : (start.queue.map SqlCommonDbOddJobMetaData.jobGuid).Nodup)
    (consistent : Consistent purge start state action)
    (recorded : state.point ≠ .finished → ∀ guid ∈ purge.jobGuids state.tables,
      guid ∈ state.selected)
    (move : Moves purge state action after) : Valid start after := by
  cases move with
  | paramsDeleted point =>
    have none := valid.noParams point
    have noGenerics := valid.noGenerics (.inl point)
    refine { valid with
      params := ?_
      noParams := ?_
      noGenerics := fun _ => noGenerics
      noJobs := fun _ => valid.noJobs (by simp [point])
      selected := ?_
      consistent := ?_ }
    · simp only [Purge.deleteParams, valid.params, none]
      simp
    · rintro ⟨⟩
    · rintro guid (params | generics | jobs)
      · exact recorded (by simp [point]) guid params
      · exact valid.selected guid (.inr (.inl generics))
      · exact valid.selected guid (.inr (.inr jobs))
    · rintro ⟨⟩
  | genericsDeleted point =>
    have none := valid.noGenerics (.inr point)
    refine { valid with
      generics := ?_
      noParams := ?_
      noGenerics := ?_
      noJobs := fun _ => valid.noJobs (by simp [point])
      selected := ?_
      consistent := ?_ }
    · simp only [Purge.deleteGenerics, valid.generics, none]
      simp
    · rintro ⟨⟩
    · rintro (⟨⟨⟩⟩ | ⟨⟨⟩⟩)
    · rintro guid (params | generics | jobs)
      · exact valid.selected guid (.inl params)
      · exact recorded (by simp [point]) guid generics
      · exact valid.selected guid (.inr (.inr jobs))
    · rintro ⟨⟩
  | jobsDeleted point => exact valid.jobsDeleted distinct point consistent (recorded (by simp [point]))
  | read lockGuid rows returned =>
    refine { valid with reads := ?_ }
    intro others member
    rcases List.mem_append.mp member with older | newer
    · exact valid.reads others older
    · rw [List.mem_singleton.mp newer]
      exact valid.read consistent returned
  | changed action tables guids params generics =>
    exact { valid with
      guids := guids.trans valid.guids
      params := params.trans valid.params
      generics := generics.trans valid.generics }

theorem Valid.step (valid : Valid start state)
    (distinct : (start.queue.map SqlCommonDbOddJobMetaData.jobGuid).Nodup)
    (consistent : Consistent purge start state action)
    (taken : state.step purge action = some after) : Valid start after := by
  have move := moves_of_act taken
  rw [watch] at move
  split at move
  · rename_i finished
    exact valid.moves distinct consistent (absurd finished) move
  · have watched : Valid start
        { state with selected := state.selected ++ purge.jobGuids state.tables } :=
      { valid with selected := fun guid member =>
          List.mem_append_left _ (valid.selected guid member) }
    refine watched.moves distinct ?_ ?_ move
    · cases action <;> exact consistent
    · exact fun _ guid member => List.mem_append_right _ member

private theorem filter_deleted {Row : Type} {rows : List Row} {owner : Row → Guid}
    {deleted : List Guid} {jobGuid : Guid}
    (kept : (∃ row ∈ rows, owner row = jobGuid) → jobGuid ∉ deleted) :
    ((rows.filter fun row => owner row ∉ deleted).filter fun row => owner row = jobGuid) =
      rows.filter fun row => owner row = jobGuid := by
  rw [List.filter_filter]
  apply List.filter_congr
  intro row member
  by_cases own : owner row = jobGuid
  · simp [own, kept ⟨row, member, own⟩]
  · simp [own]

private theorem Valid.intact (valid : Valid start state) {q : SqlCommonDbOddJobMetaData}
    (member : q ∈ start.queue) (job : q.jobGuid ∉ state.jobsOf)
    (params : HasParams start q.jobGuid → q.jobGuid ∉ state.paramsOf)
    (generics : HasGenerics start q.jobGuid → q.jobGuid ∉ state.genericsOf) :
    Intact start state.tables q.jobGuid := by
  constructor
  · have listed : q.jobGuid ∈ state.tables.queue.map SqlCommonDbOddJobMetaData.jobGuid := by
      rw [valid.guids, List.mem_filter, decide_eq_true_eq]
      exact ⟨List.mem_map_of_mem member, job⟩
    exact List.mem_map.mp listed
  · rw [valid.params]
    exact filter_deleted params
  · rw [valid.generics]
    exact filter_deleted generics

private theorem Valid.gone (valid : Valid start state) {jobGuid : Guid}
    (job : jobGuid ∈ state.jobsOf) (params : HasParams start jobGuid → jobGuid ∈ state.paramsOf)
    (generics : HasGenerics start jobGuid → jobGuid ∈ state.genericsOf) :
    Gone state.tables jobGuid := by
  constructor
  · rintro q member rfl
    have listed := List.mem_map_of_mem (f := SqlCommonDbOddJobMetaData.jobGuid) member
    rw [valid.guids, List.mem_filter, decide_eq_true_eq] at listed
    exact listed.2 job
  · rintro p member rfl
    rw [valid.params, List.mem_filter, decide_eq_true_eq] at member
    exact member.2 (params ⟨p, member.1, rfl⟩)
  · rintro g member rfl
    rw [valid.generics, List.mem_filter, decide_eq_true_eq] at member
    exact member.2 (generics ⟨g, member.1, rfl⟩)

/-- A job that is returned has an argument for every parameter that was read of it. -/
theorem arg_of_row {CliType Value : Type} {decoder : Decoder CliType Value}
    {rows : List SqlQueueRowSet} {jobs : List (SqlDbOddJob CliType Value)}
    (done : toList (executeJoinQuery decoder rows) = .ok jobs) {job : SqlDbOddJob CliType Value}
    (member : job ∈ jobs) {row : SqlQueueRowSet} (present : row ∈ rows)
    (own : row.metaData.jobGuid = job.jobId) (typed : row.paramData.serializedType.isSome = true) :
    ∃ arg ∈ job.jobArgs, ∃ other ∈ rows, other.metaData.jobGuid = job.jobId ∧
      other.paramData.paramOrdinal = row.paramData.paramOrdinal ∧
        decoder.param other.paramData = .ok arg := by
  have listed : Except.ok job ∈ executeJoinQuery decoder rows := by
    rw [toList_eq_ok_iff.mp done]
    exact List.mem_map_of_mem member
  obtain ⟨⟨jobGuid, group⟩, grouped, found⟩ := List.mem_filterMap.mp listed
  obtain ⟨first, _, decoded⟩ := Option.map_eq_some_iff.mp found
  have id := (decoder.ofGroup_ok decoded).1
  have same : group = rows.filter fun row => row.metaData.jobGuid = jobGuid :=
    (mem_groupBy.mp grouped).2
  have inside : row ∈ group := by
    rw [same, List.mem_filter, decide_eq_true_eq]
    exact ⟨present, own.trans id⟩
  have typed : row.paramData ∈ ((orderBy (fun p => p.paramData.paramOrdinal) group).map
      SqlQueueRowSet.paramData).filter (fun s => s.serializedType.isSome) :=
    List.mem_filter.mpr ⟨List.mem_map_of_mem (mem_orderBy.mpr inside), typed⟩
  obtain ⟨s, kept, ordinal⟩ : ∃ s ∈ orderedParams group,
    s.paramOrdinal = row.paramData.paramOrdinal := exists_first typed
  obtain ⟨other, within, rfl⟩ := List.mem_map.mp (List.mem_filter.mp (mem_of_mem_firsts kept)).1
  have within : other ∈ group := mem_orderBy.mp within
  rw [same, List.mem_filter, decide_eq_true_eq] at within
  rw [decoder.ofGroup_eq_decode, decoder.decode_eq_ok_iff] at decoded
  obtain ⟨_, _, _, _, args, _, rfl⟩ := decoded
  have encoded : decoder.arg (serializedParameter other.paramData) ∈
      (serializableOfGroup jobGuid first group).jobArgs.map decoder.arg :=
    List.mem_map_of_mem (List.mem_map_of_mem kept)
  rw [mapM_eq_ok_iff.mp args] at encoded
  obtain ⟨arg, there, read⟩ := List.mem_map.mp encoded
  exact ⟨arg, there, other, within.1, within.2, ordinal, read.symm⟩

theorem Valid.promises (valid : Valid start state) : Promises start state := by
  refine ⟨fun finished q member => ?_, fun q member unselected => ?_, valid.reads,
    fun rows read CliType Value decoder jobs done job member p stored own typed => ?_⟩
  · obtain ⟨params, generics⟩ := valid.consistent finished q member
    by_cases job : q.jobGuid ∈ state.jobsOf
    · exact .inl (valid.gone job (fun has => (params has).mpr job) fun has => (generics has).mpr job)
    · exact .inr (valid.intact member job (fun has => mt (params has).mp job)
        fun has => mt (generics has).mp job)
  · exact valid.intact member (fun job => unselected (valid.selected _ (.inr (.inr job))))
      (fun _ params => unselected (valid.selected _ (.inl params)))
      fun _ generics => unselected (valid.selected _ (.inr (.inl generics)))
  · obtain ⟨row, present, same⟩ : ∃ row ∈ rows, row.metaData.jobGuid = job.jobId := by
      have listed : job.jobId ∈ jobs.map SqlDbOddJob.jobId := List.mem_map_of_mem member
      rw [decoder.fetchedIds_eq done, decodings_keys, mem_distinct] at listed
      exact List.mem_map.mp listed
    obtain ⟨other, there, metaData, rfl⟩ := valid.reads rows read row present p stored
      (own.trans same.symm)
    exact arg_of_row done member there (metaData ▸ same) typed

/-- A purge keeps its promises in every run in which the last `DELETE` selects what the first
two selected, as far as these had anything to delete, and no fetch reads in between a job
whose parameters are gone. -/
theorem keeps_promises (purge : Purge) {start : Tables}
    (distinct : (start.queue.map SqlCommonDbOddJobMetaData.jobGuid).Nodup) {state : Purging}
    (reached : Reaches (fun state (action : PurgeAction Key) => state.step purge action)
      (Consistent purge start) { tables := start } state) : Promises start state :=
  (reached.invariant (valid_start start) fun _ _ _ valid consistent taken =>
    valid.step distinct consistent taken).promises

def purgeNew : Purge where
  name := "default"
  stateToPurge := "New"
  purgeOlderThan := 100

/-- A job is fetched before it is purged, and a worker finishes another job meanwhile. -/
def calmPurge : List (PurgeAction Int) :=
  [.claim fetchClaim queuedTables.queue,
    .read 40 (joinQuery [fetchClaim.lock (queuedRow 1 .new none)] queuedTables),
    .deleteParams, .mark .markJobSuccess 8 50, .deleteGenerics, .deleteJobs]

theorem keeps_promises_of_calm : ∃ state,
    execute (fun _ _ => true) (fun state action => state.step purgeNew action)
      { tables := queuedTables } calmPurge = some state ∧
    state.point = .finished ∧ state.reads.map List.length = [1] ∧ Promises queuedTables state := by
  refine ⟨_, rfl, rfl, by decide, keeps_promises purgeNew (by decide) (reaches_of_execute
    (fun _ _ => of_decide_eq_true)
    (rfl : execute (fun state (action : PurgeAction Int) =>
      decide (Consistent purgeNew queuedTables state action))
      (fun state action => state.step purgeNew action) { tables := queuedTables } calmPurge =
        some _))⟩

/-- A worker starts the job between the first and the last `DELETE`. -/
def lateMark : List (PurgeAction Int) :=
  [.deleteParams, .mark .markJobInProgress 7 50, .deleteGenerics, .deleteJobs]

/-- A fetch that claimed the job before the purge reads it after the first `DELETE`. -/
def lateRead : List (PurgeAction Int) :=
  [.claim fetchClaim queuedTables.queue, .deleteParams, .read 40
    (joinQuery [fetchClaim.lock (queuedRow 1 .new none)] {})]

/-- The job stays behind without its parameter, and a fetch returns it without. -/
theorem purge_splits_job :
    (∃ state, execute (fun _ _ => true) (fun state action => state.step purgeNew action)
      { tables := queuedTables } lateMark = some state ∧ ¬ Promises queuedTables state) ∧
    ∃ state, execute (fun _ _ => true) (fun state action => state.step purgeNew action)
      { tables := queuedTables } lateRead = some state ∧ ¬ Promises queuedTables state := by
  refine ⟨⟨_, rfl, fun promises => ?_⟩, ⟨_, rfl, fun promises => ?_⟩⟩
  · rcases promises.whole rfl (queuedRow 1 .new none) (by decide) with gone | intact
    · exact absurd gone.queue (by decide)
    · exact absurd intact.params (by decide)
  · obtain ⟨other, member, _, param⟩ := promises.reads _ List.mem_cons_self _
      List.mem_cons_self _ List.mem_cons_self rfl
    rw [List.mem_singleton.mp member] at param
    exact absurd param (by decide)

end Purging

end OddJob.Sql
