import OddJob.Lib.Dictionary
import OddJob.Sql.Store
import Mathlib.Logic.Function.Basic

/-! `QueueNameBasedJobAdderQueueTableResolver` and `AddJobs`: jobs that are written in batches
to the tables of their queues, and fetched from there. -/

namespace OddJob.Sql

open Linq Transition

variable {Key CliType Value : Type} [LinearOrder Key]

/-- `ISqlDbJobQueueTableConfiguration` -/
structure TableConfiguration where
  queueTableName : String
  paramTableName : String
  jobMethodGenericParamTableName : String
  jobClaimLockTimeoutInSeconds : Int
  deriving DecidableEq, Repr

/-- `SqlDbJobQueueDefaultTableConfiguration` -/
def defaultTableConfiguration : TableConfiguration where
  queueTableName := "QueueTable"
  paramTableName := "QueueParamValue"
  jobMethodGenericParamTableName := "QueueJobMethodGenericParam"
  jobClaimLockTimeoutInSeconds := defaultJobClaimLockTimeoutInSeconds

structure Database where
  queues : String → List SqlCommonDbOddJobMetaData := fun _ => []
  nextIds : String → Int := fun _ => 1
  params : String → List SqlCommonOddJobParamMetaData := fun _ => []
  generics : String → List SqlDbOddJobMethodGenericInfo := fun _ => []

namespace Database

/-- `QueueTable`, `ParamTable` and `MethodGenericParameterTable` of a configuration. -/
def tables (database : Database) (configuration : TableConfiguration) : Tables where
  queue := database.queues configuration.queueTableName
  params := database.params configuration.paramTableName
  generics := database.generics configuration.jobMethodGenericParamTableName
  nextId := database.nextIds configuration.queueTableName

def write (database : Database) (configuration : TableConfiguration) (tables : Tables) :
    Database where
  queues := Function.update database.queues configuration.queueTableName tables.queue
  nextIds := Function.update database.nextIds configuration.queueTableName tables.nextId
  params := Function.update database.params configuration.paramTableName tables.params
  generics := Function.update database.generics configuration.jobMethodGenericParamTableName
    tables.generics

end Database

/-- Two configurations that have no table in common. -/
def TableConfiguration.Apart (first second : TableConfiguration) : Prop :=
  first.queueTableName ≠ second.queueTableName ∧
  first.paramTableName ≠ second.paramTableName ∧
  first.jobMethodGenericParamTableName ≠ second.jobMethodGenericParamTableName

instance (first second : TableConfiguration) : Decidable (first.Apart second) :=
  inferInstanceAs (Decidable (_ ∧ _ ∧ _))

namespace Database

variable {database : Database} {first second : TableConfiguration} {tables : Tables}

@[simp] theorem tables_write : (database.write first tables).tables first = tables := by
  simp [Database.tables, write]

theorem tables_write_of_apart (apart : second.Apart first) :
    (database.write first tables).tables second = database.tables second := by
  obtain ⟨queue, params, generics⟩ := apart
  simp [Database.tables, write, queue, params, generics]

end Database

structure QueueNameBasedJobAdderQueueTableResolver where
  queueTableMappings : Dictionary String TableConfiguration
  defaultTableConfiguration : TableConfiguration

namespace QueueNameBasedJobAdderQueueTableResolver

variable (resolver : QueueNameBasedJobAdderQueueTableResolver)

def configurationFor (queueName : String) : TableConfiguration :=
  if resolver.queueTableMappings.containsKey queueName then
    (resolver.queueTableMappings.lookup queueName).getD resolver.defaultTableConfiguration
  else resolver.defaultTableConfiguration

def getConfigurationForJob (job : SerializableOddJob) : TableConfiguration :=
  resolver.configurationFor job.queueName

/-- The configurations that a job can be written to. -/
def configurations : List TableConfiguration :=
  resolver.defaultTableConfiguration :: resolver.queueTableMappings.entries.map Prod.snd

theorem configurationFor_mem (queueName : String) :
    resolver.configurationFor queueName ∈ resolver.configurations := by
  rw [configurationFor]
  split
  · cases found : resolver.queueTableMappings.lookup queueName with
    | none => exact List.mem_cons_self
    | some configuration =>
      exact List.mem_cons_of_mem _ (List.mem_map_of_mem
        (Dictionary.lookup_eq_some_iff.mp found))
  · exact List.mem_cons_self

end QueueNameBasedJobAdderQueueTableResolver

/-- `DefaultJobAdderQueueTableResolver` -/
def defaultJobAdderQueueTableResolver (tableConfiguration : TableConfiguration) :
    QueueNameBasedJobAdderQueueTableResolver where
  queueTableMappings := ∅
  defaultTableConfiguration := tableConfiguration

/-- A resolver whose configurations have tables of their own. -/
structure Routing where
  resolver : QueueNameBasedJobAdderQueueTableResolver
  apart : ∀ first ∈ resolver.configurations, ∀ second ∈ resolver.configurations,
    first ≠ second → first.Apart second

namespace Routing

/-- With the default resolver there is one configuration for all jobs. -/
def single (tableConfiguration : TableConfiguration) : Routing where
  resolver := defaultJobAdderQueueTableResolver tableConfiguration
  apart first listed second other different := by
    obtain rfl := List.mem_singleton.mp listed
    exact absurd (List.mem_singleton.mp other).symm different

variable (routing : Routing)

abbrev Index : Type := { configuration // configuration ∈ routing.resolver.configurations }

def indexFor (queueName : String) : routing.Index :=
  ⟨routing.resolver.configurationFor queueName, routing.resolver.configurationFor_mem queueName⟩

/-- The tables that `_addJobImpl` writes a job to. -/
def indexOf (job : SerializableOddJob) : routing.Index :=
  ⟨routing.resolver.getConfigurationForJob job, routing.resolver.configurationFor_mem _⟩

end Routing

/-- The statement after which the next one comes. -/
def Point.next : Point → Point
  | .inserted => .paramsCopied
  | .paramsCopied => .genericsCopied
  | .genericsCopied | .published => .published

/-- A call of `AddJobs` that has come to one of its jobs. -/
structure Batch where
  done : List SerializableOddJob := []
  current : Option (SerializableOddJob × Point) := none
  rest : List SerializableOddJob

namespace Batch

/-- The jobs of the call, in their order. -/
def jobs (batch : Batch) : List SerializableOddJob :=
  batch.done ++ (batch.current.map Prod.fst).toList ++ batch.rest

/-- The next statement: whose it is, what it does, and where the call is after it. -/
def statement (batch : Batch) (now : Ticks) :
    Option (SerializableOddJob × Store.Action Key × Batch) :=
  match batch.current, batch.rest with
  | some (job, point), _ => some (job, .proceed job.jobId,
      if point.next = .published then { batch with done := batch.done ++ [job], current := none }
      else { batch with current := some (job, point.next) })
  | none, job :: rest => some (job, .insert job now,
      { batch with current := some (job, .inserted), rest })
  | none, [] => none

/-- A job that was begun, and how far it has come. -/
def Has (batch : Batch) (job : SerializableOddJob) (point : Point) : Prop :=
  job ∈ batch.done ∧ point = .published ∨ batch.current = some (job, point)

theorem Has.mem_jobs {batch : Batch} {job : SerializableOddJob} {point : Point}
    (has : batch.Has job point) : job ∈ batch.jobs := by
  rcases has with ⟨done, _⟩ | current
  · exact List.mem_append_left _ (List.mem_append_left _ done)
  · exact List.mem_append_left _ (List.mem_append_right _ (by simp [current]))

end Batch

/-- The tables of all configurations, and what was done to each of them. -/
structure Shards (routing : Routing) where
  database : Database := {}
  insertions : routing.Index → List Insertion := fun _ => []
  fetched : routing.Index → List Guid := fun _ => []
  batches : List Batch := []

namespace Shards

variable {routing : Routing}

/-- What an adder or a manager with one of the configurations works on. -/
def view (state : Shards routing) (index : routing.Index) : Store where
  tables := state.database.tables index
  insertions := state.insertions index
  fetched := state.fetched index

def put (state : Shards routing) (index : routing.Index) (store : Store) : Shards routing :=
  { state with
    database := state.database.write index store.tables
    insertions := Function.update state.insertions index store.insertions
    fetched := Function.update state.fetched index store.fetched }

inductive Action (routing : Routing) (Key : Type) where
  | addJobs (jobDataSet : List SerializableOddJob)
  /-- the next statement of a call of `AddJobs` -/
  | advance (call : Nat) (now : Ticks)
  /-- a manager with one of the configurations -/
  | claim (index : routing.Index) (call : Claim Key) (scan : List SqlCommonDbOddJobMetaData)
  | read (index : routing.Index) (lockGuid : Guid) (rows : List SqlQueueRowSet)
  | mark (index : routing.Index) (mark : Mark) (jobId : Guid) (now : Ticks)

/-- The ids of the jobs of all calls. -/
def jobIds (state : Shards routing) : List Guid :=
  (state.batches.flatMap Batch.jobs).map SerializableOddJob.jobId

/-- Job ids are made up once. -/
def step (state : Shards routing) : Action routing Key → Option (Shards routing)
  | .addJobs jobDataSet =>
    if (state.jobIds ++ jobDataSet.map SerializableOddJob.jobId).Nodup then
      some { state with batches := state.batches ++ [{ rest := jobDataSet }] }
    else none
  | .advance call now =>
    match state.batches[call]?.bind fun batch => batch.statement now with
    | none => none
    | some (job, action, batch) =>
      ((state.view (routing.indexOf job)).step (action : Store.Action Key)).map fun store =>
        { state.put (routing.indexOf job) store with batches := state.batches.set call batch }
  | .claim index call scan =>
    ((state.view index).step (.claim call scan)).map (state.put index)
  | .read index lockGuid rows =>
    ((state.view index).step (.read lockGuid rows : Store.Action Key)).map (state.put index)
  | .mark index mark jobId now =>
    ((state.view index).step (.mark mark jobId now : Store.Action Key)).map (state.put index)

section Views

variable {state after : Shards routing} {index other : routing.Index} {store : Store}

@[simp] theorem view_put : (state.put index store).view index = store := by
  simp [view, put]

@[simp] theorem view_put_of_ne (different : other ≠ index) :
    (state.put index store).view other = state.view other := by
  have apart : other.val.Apart index.val :=
    routing.apart other other.property index index.property fun same => different (Subtype.ext same)
  simp [view, put, different, Database.tables_write_of_apart apart]

@[simp] theorem view_batches (batches : List Batch) :
    { state with batches }.view index = state.view index := rfl

/-- What a step can do. -/
inductive Moves (state : Shards routing) : Shards routing → Prop where
  | addJobs (jobDataSet : List SerializableOddJob)
      (fresh : (state.jobIds ++ jobDataSet.map SerializableOddJob.jobId).Nodup) :
      Moves state { state with batches := state.batches ++ [{ rest := jobDataSet }] }
  | insert (call : Nat) (batch : Batch) (job : SerializableOddJob) (now : Ticks)
      (rest : List SerializableOddJob) (found : state.batches[call]? = some batch)
      (idle : batch.current = none) (left : batch.rest = job :: rest)
      (unknown : (state.view (routing.indexOf job)).knows job.jobId = false) :
      Moves state { state.put (routing.indexOf job)
          ((state.view (routing.indexOf job)).insert job now) with
        batches := state.batches.set call
          { batch with current := some (job, .inserted), rest } }
  | proceed (call : Nat) (batch : Batch) (job : SerializableOddJob) (point : Point)
      (insertion : Insertion) (found : state.batches[call]? = some batch)
      (busy : batch.current = some (job, point))
      (member : insertion ∈ (state.view (routing.indexOf job)).insertions)
      (own : insertion.jobData.jobId = job.jobId) :
      Moves state { state.put (routing.indexOf job)
          ((state.view (routing.indexOf job)).proceed insertion) with
        batches := state.batches.set call
          (if point.next = .published then
            { batch with done := batch.done ++ [job], current := none }
          else { batch with current := some (job, point.next) }) }
  | manager (index : routing.Index) (store : Store)
      (same : store.insertions = state.insertions index) :
      Moves state (state.put index store)

private theorem insertions_of_step {store after : Store} {action : Store.Action Key}
    (taken : store.step action = some after)
    (noInsert : ∀ jobData now, action ≠ .insert jobData now)
    (noProceed : ∀ jobId, action ≠ .proceed jobId) : after.insertions = store.insertions := by
  cases action with
  | insert jobData now => exact absurd rfl (noInsert jobData now)
  | proceed jobId => exact absurd rfl (noProceed jobId)
  | claim call scan =>
    simp only [Store.step] at taken
    split at taken <;> cases taken
    rfl
  | read lockGuid rows =>
    simp only [Store.step] at taken
    split at taken <;> cases taken
    rfl
  | mark mark jobId now =>
    simp only [Store.step] at taken
    split at taken <;> cases taken
    rfl

theorem moves_of_step {action : Action routing Key} (taken : state.step action = some after) :
    Moves state after := by
  cases action with
  | addJobs jobDataSet =>
    simp only [step] at taken
    split at taken
    · rename_i fresh
      cases taken
      exact .addJobs jobDataSet fresh
    · cases taken
  | advance call now =>
    simp only [step] at taken
    split at taken
    · cases taken
    rename_i job action next stated
    obtain ⟨batch, found, statement⟩ := Option.bind_eq_some_iff.mp stated
    obtain ⟨store, done, rfl⟩ := Option.map_eq_some_iff.mp taken
    rw [Batch.statement] at statement
    split at statement
    · rename_i busy
      cases statement
      obtain ⟨insertion, listed, rfl⟩ := Option.map_eq_some_iff.mp done
      exact .proceed call batch _ _ insertion found busy (List.mem_of_find?_eq_some listed)
        (by simpa using List.find?_some listed)
    · rename_i idle left
      cases statement
      simp only [Store.step] at done
      split at done
      · cases done
      · rename_i unknown
        cases done
        exact .insert call batch _ now _ found idle left (Bool.not_eq_true _ ▸ unknown)
    · cases statement
  | claim index call scan =>
    obtain ⟨store, done, rfl⟩ := Option.map_eq_some_iff.mp taken
    exact .manager index store (insertions_of_step done (by simp) (by simp))
  | read index lockGuid rows =>
    obtain ⟨store, done, rfl⟩ := Option.map_eq_some_iff.mp taken
    exact .manager index store (insertions_of_step done (by simp) (by simp))
  | mark index mark jobId now =>
    obtain ⟨store, done, rfl⟩ := Option.map_eq_some_iff.mp taken
    exact .manager index store (insertions_of_step done (by simp) (by simp))

private theorem view_of_step {action : Action routing Key} (taken : state.step action = some after)
    (index : routing.Index) : after.view index = state.view index ∨
      ∃ inner : Store.Action Key, (state.view index).step inner = some (after.view index) := by
  have within {target : routing.Index} {inner : Store.Action Key} {store : Store}
      (done : (state.view target).step inner = some store) :
      (state.put target store).view index = state.view index ∨
        ∃ inner : Store.Action Key,
          (state.view index).step inner = some ((state.put target store).view index) := by
    by_cases same : index = target
    · subst same
      exact .inr ⟨inner, done.trans (congrArg some view_put.symm)⟩
    · exact .inl (view_put_of_ne same)
  cases action with
  | addJobs jobDataSet =>
    simp only [step] at taken
    split at taken <;> cases taken
    exact .inl rfl
  | advance call now =>
    simp only [step] at taken
    split at taken
    · cases taken
    obtain ⟨store, done, rfl⟩ := Option.map_eq_some_iff.mp taken
    exact within done
  | claim index call scan =>
    obtain ⟨store, done, rfl⟩ := Option.map_eq_some_iff.mp taken
    exact within done
  | read index lockGuid rows =>
    obtain ⟨store, done, rfl⟩ := Option.map_eq_some_iff.mp taken
    exact within done
  | mark index mark jobId now =>
    obtain ⟨store, done, rfl⟩ := Option.map_eq_some_iff.mp taken
    exact within done

/-- Whatever happens elsewhere, the tables of one configuration go through a run of their own. -/
theorem view_reaches (reached : Reaches (@step Key _ routing) anyAction {} state)
    (index : routing.Index) : Reaches (@Store.step Key _) anyAction {} (state.view index) := by
  induction reached with
  | refl => exact .refl
  | next _ _ taken ih =>
    rcases view_of_step taken index with same | ⟨inner, moved⟩
    · exact same ▸ ih
    · exact .next ih trivial moved

end Views

section Routed

variable {state after : Shards routing} {index : routing.Index}

/-- Every insert is of a batch, in the tables of its queue, and as far as the batch says. -/
structure Routed (state : Shards routing) : Prop where
  distinct : state.jobIds.Nodup
  known : ∀ index, ∀ insertion ∈ state.insertions index,
    routing.indexOf insertion.jobData = index ∧
      ∃ batch ∈ state.batches, batch.Has insertion.jobData insertion.point
  begun : ∀ batch ∈ state.batches, ∀ job point, batch.Has job point →
    ∃ insertion ∈ state.insertions (routing.indexOf job),
      insertion.jobData = job ∧ insertion.point = point
  unfinished : ∀ batch ∈ state.batches, ∀ job, batch.current ≠ some (job, .published)

private theorem mem_set {batches : List Batch} {call : Nat} {batch next other : Batch}
    (found : batches[call]? = some batch) :
    other ∈ batches.set call next ↔
      other = next ∨ ∃ place, place ≠ call ∧ batches[place]? = some other := by
  obtain ⟨bound, _⟩ := List.getElem?_eq_some_iff.mp found
  constructor
  · intro member
    obtain ⟨place, same⟩ := List.mem_iff_getElem?.mp member
    by_cases here : place = call
    · subst here
      rw [List.getElem?_set_self bound] at same
      exact .inl (Option.some.inj same).symm
    · rw [List.getElem?_set_ne (Ne.symm here)] at same
      exact .inr ⟨place, here, same⟩
  · rintro (rfl | ⟨place, different, same⟩)
    · exact List.mem_iff_getElem?.mpr ⟨call, List.getElem?_set_self bound⟩
    · refine List.mem_iff_getElem?.mpr ⟨place, ?_⟩
      rwa [List.getElem?_set_ne (Ne.symm different)]

private theorem apart_of_distinct (distinct : state.jobIds.Nodup) {first second : Nat}
    (different : first ≠ second) {one two : Batch} (here : state.batches[first]? = some one)
    (there : state.batches[second]? = some two) {job other : SerializableOddJob}
    (left : job ∈ one.jobs) (right : other ∈ two.jobs) : job.jobId ≠ other.jobId := by
  have flat : (state.batches.flatMap fun batch =>
      batch.jobs.map SerializableOddJob.jobId).Nodup := by
    rw [← List.map_flatMap]
    exact distinct
  have pairs := (List.nodup_flatMap.mp flat).2
  obtain ⟨firstBound, rfl⟩ := List.getElem?_eq_some_iff.mp here
  obtain ⟨secondBound, rfl⟩ := List.getElem?_eq_some_iff.mp there
  intro same
  rcases Nat.lt_or_gt_of_ne different with before | behind
  · exact (List.pairwise_iff_getElem.mp pairs first second firstBound secondBound before)
      (List.mem_map_of_mem left) (same ▸ List.mem_map_of_mem right)
  · exact (List.pairwise_iff_getElem.mp pairs second first secondBound firstBound behind)
      (List.mem_map_of_mem right) (same ▸ List.mem_map_of_mem left)

private theorem jobIds_set {call : Nat} {batch next : Batch}
    (found : state.batches[call]? = some batch) (same : next.jobs = batch.jobs) :
    ({ state with batches := state.batches.set call next }).jobIds = state.jobIds := by
  obtain ⟨bound, rfl⟩ := List.getElem?_eq_some_iff.mp found
  have jobs : (state.batches.set call next).map Batch.jobs = state.batches.map Batch.jobs := by
    have self := @List.set_getElem_self _ (state.batches.map Batch.jobs) call (by simpa using bound)
    rwa [List.getElem_map, ← same, ← List.map_set] at self
  simp only [jobIds, List.flatMap_def, jobs]

private theorem Routed.addJobs (valid : Routed state) {jobDataSet : List SerializableOddJob}
    (fresh : (state.jobIds ++ jobDataSet.map SerializableOddJob.jobId).Nodup) :
    Routed { state with batches := state.batches ++ [{ rest := jobDataSet }] } where
  distinct := by simpa [jobIds, Batch.jobs] using fresh
  known index insertion member := by
    obtain ⟨own, batch, listed, has⟩ := valid.known index insertion member
    exact ⟨own, batch, List.mem_append_left _ listed, has⟩
  begun batch listed job point has := by
    rcases List.mem_append.mp listed with older | newer
    · exact valid.begun batch older job point has
    · obtain rfl := List.mem_singleton.mp newer
      rcases has with ⟨done, _⟩ | current
      · cases done
      · cases current
  unfinished batch listed job current := by
    rcases List.mem_append.mp listed with older | newer
    · exact valid.unfinished batch older job current
    · obtain rfl := List.mem_singleton.mp newer
      cases current

private theorem Routed.manager (valid : Routed state) {store : Store}
    (same : store.insertions = state.insertions index) : Routed (state.put index store) := by
  have insertions : (state.put index store).insertions = state.insertions := by
    rw [put, same, Function.update_eq_self]
  exact ⟨valid.distinct, insertions ▸ valid.known, insertions ▸ valid.begun, valid.unfinished⟩

private theorem jobs_nodup (distinct : state.jobIds.Nodup) {batch : Batch}
    (member : batch ∈ state.batches) : batch.jobs.Nodup := by
  have flat : (state.batches.flatMap Batch.jobs).Nodup := .of_map _ distinct
  exact (List.nodup_flatMap.mp flat).1 batch member

private theorem Routed.advance (valid : Routed state) {call : Nat} {batch next : Batch}
    {job : SerializableOddJob} {moved : Insertion} {store : Store}
    (found : state.batches[call]? = some batch) (jobs : next.jobs = batch.jobs)
    (listed : job ∈ batch.jobs)
    (has : ∀ other point, next.Has other point ↔
      other = job ∧ point = moved.point ∨ batch.Has other point ∧ other ≠ job)
    (unfinished : ∀ other, next.current ≠ some (other, .published)) (own : moved.jobData = job)
    (insertions : ∀ insertion, insertion ∈ store.insertions ↔ insertion = moved ∨
      insertion ∈ state.insertions (routing.indexOf job) ∧ insertion.jobData ≠ job) :
    Routed { state.put (routing.indexOf job) store with
      batches := state.batches.set call next } := by
  have mem_iff (index : routing.Index) (insertion : Insertion) :
      insertion ∈ (state.put (routing.indexOf job) store).insertions index ↔
        insertion = moved ∧ index = routing.indexOf job ∨
        insertion ∈ state.insertions index ∧ insertion.jobData ≠ job := by
    by_cases here : index = routing.indexOf job
    · subst here
      simp [put, insertions]
    · have foreign (member : insertion ∈ state.insertions index) : insertion.jobData ≠ job := by
        rintro rfl
        exact here (valid.known index insertion member).1.symm
      simp only [put, Function.update_of_ne here, here, and_false, false_or]
      exact ⟨fun member => ⟨member, foreign member⟩, And.left⟩
  refine ⟨?_, ?_, ?_, ?_⟩
  · exact (jobIds_set found jobs).symm ▸ valid.distinct
  · intro index insertion member
    rcases (mem_iff index insertion).mp member with ⟨rfl, rfl⟩ | ⟨older, different⟩
    · refine ⟨by rw [own], next, (mem_set found).mpr (.inl rfl), ?_⟩
      exact (has _ _).mpr (.inl ⟨own, rfl⟩)
    · obtain ⟨home, other, present, had⟩ := valid.known index insertion older
      refine ⟨home, ?_⟩
      obtain ⟨place, same⟩ := List.mem_iff_getElem?.mp present
      by_cases here : place = call
      · subst here
        obtain rfl := Option.some.inj (found.symm.trans same)
        exact ⟨next, (mem_set found).mpr (.inl rfl), (has _ _).mpr (.inr ⟨had, different⟩)⟩
      · exact ⟨other, (mem_set found).mpr (.inr ⟨place, here, same⟩), had⟩
  · intro other member job' point had
    have still (older : ∃ insertion ∈ state.insertions (routing.indexOf job'),
        insertion.jobData = job' ∧ insertion.point = point) (different : job' ≠ job) :
        ∃ insertion ∈ (state.put (routing.indexOf job) store).insertions (routing.indexOf job'),
          insertion.jobData = job' ∧ insertion.point = point := by
      obtain ⟨insertion, present, rfl, same⟩ := older
      exact ⟨insertion, (mem_iff _ _).mpr (.inr ⟨present, different⟩), rfl, same⟩
    rcases (mem_set found).mp member with rfl | ⟨place, different, same⟩
    · rcases (has job' point).mp had with ⟨rfl, rfl⟩ | ⟨older, different⟩
      · exact ⟨moved, (mem_iff _ _).mpr (.inl ⟨rfl, rfl⟩), own, rfl⟩
      · have present := List.mem_iff_getElem?.mpr ⟨call, found⟩
        exact still (valid.begun batch present _ _ older) different
    · refine still (valid.begun other (List.mem_iff_getElem?.mpr ⟨place, same⟩) _ _ had) ?_
      rintro rfl
      exact apart_of_distinct valid.distinct different same found had.mem_jobs listed rfl
  · intro other member job' current
    rcases (mem_set found).mp member with rfl | ⟨place, _, same⟩
    · exact unfinished job' current
    · exact valid.unfinished other (List.mem_iff_getElem?.mpr ⟨place, same⟩) job' current

private theorem insertions_proceed {store : Store} {insertion : Insertion}
    (unfinished : insertion.point ≠ .published) : (store.proceed insertion).insertions =
      reach store.insertions insertion.jobData.jobId insertion.point.next := by
  unfold Store.proceed
  cases point : insertion.point with
  | published => exact absurd point unfinished
  | _ => rfl

private theorem Routed.insert (valid : Routed state) {call : Nat} {batch : Batch}
    {job : SerializableOddJob} {rest : List SerializableOddJob} {now : Ticks}
    (found : state.batches[call]? = some batch) (idle : batch.current = none)
    (left : batch.rest = job :: rest)
    (unknown : (state.view (routing.indexOf job)).knows job.jobId = false) :
    Routed { state.put (routing.indexOf job)
        ((state.view (routing.indexOf job)).insert job now) with
      batches := state.batches.set call
        { batch with current := some (job, .inserted), rest } } := by
  have listed : job ∈ batch.jobs := by simp [Batch.jobs, left]
  have once := jobs_nodup valid.distinct (List.mem_iff_getElem?.mpr ⟨call, found⟩)
  have done (other : SerializableOddJob) (member : other ∈ batch.done) : other ≠ job := by
    rw [Batch.jobs, idle, left] at once
    exact (List.nodup_append.mp once).2.2 other (List.mem_append_left _ member) job
      List.mem_cons_self
  refine @Routed.advance _ _ valid _ _ _ _
    { jobData := job, insertedId := (state.view (routing.indexOf job)).tables.nextId } _ found ?_
    listed ?_ ?_ rfl ?_
  · simp [Batch.jobs, idle, left]
  · intro other point
    simp only [Batch.Has, idle, reduceCtorEq, or_false, Option.some.injEq, Prod.mk.injEq]
    constructor
    · rintro (⟨member, published⟩ | ⟨rfl, rfl⟩)
      · exact .inr ⟨⟨member, published⟩, done other member⟩
      · exact .inl ⟨rfl, rfl⟩
    · rintro (⟨rfl, rfl⟩ | ⟨older, _⟩)
      · exact .inr ⟨rfl, rfl⟩
      · exact .inl older
  · simp
  · intro insertion
    have appended : ((state.view (routing.indexOf job)).insert job now).insertions =
        state.insertions (routing.indexOf job) ++
          [{ jobData := job
             insertedId := (state.view (routing.indexOf job)).tables.nextId }] := rfl
    rw [appended, List.mem_append, List.mem_singleton, or_comm]
    refine or_congr_right ⟨fun member => ⟨member, ?_⟩, And.left⟩
    rintro rfl
    have known : (state.view (routing.indexOf insertion.jobData)).knows insertion.jobData.jobId :=
      Store.knows_iff.mpr ⟨insertion, member, rfl⟩
    rw [known] at unknown
    cases unknown

private theorem Routed.proceed (valid : Routed state)
    (sound : (state.view index).Valid) {call : Nat} {batch : Batch} {job : SerializableOddJob}
    {point : Point} {insertion : Insertion} (home : index = routing.indexOf job)
    (found : state.batches[call]? = some batch) (busy : batch.current = some (job, point))
    (member : insertion ∈ (state.view index).insertions)
    (own : insertion.jobData.jobId = job.jobId) :
    Routed { state.put index ((state.view index).proceed insertion) with
      batches := state.batches.set call
        (if point.next = .published then { batch with done := batch.done ++ [job], current := none }
        else { batch with current := some (job, point.next) }) } := by
  subst home
  have present := List.mem_iff_getElem?.mpr ⟨call, found⟩
  have unfinished : point ≠ .published := by
    rintro rfl
    exact valid.unfinished batch present job busy
  obtain ⟨started, begun, rfl, rfl⟩ := valid.begun batch present _ _ (.inr busy)
  obtain rfl : started = insertion := sound.insertion_unique begun member own.symm
  have listed : started.jobData ∈ batch.jobs := by simp [Batch.jobs, busy]
  have once := jobs_nodup valid.distinct present
  have done (other : SerializableOddJob) (member : other ∈ batch.done) :
      other ≠ started.jobData := by
    rw [Batch.jobs, busy] at once
    exact (List.nodup_append.mp (List.nodup_append.mp once).1).2.2 other member _
      (by simp)
  refine @Routed.advance _ _ valid _ _ _ _ { started with point := started.point.next } _ found ?_
    listed ?_ ?_ rfl ?_
  · split <;> simp [Batch.jobs, busy]
  · intro other point
    have older : batch.Has other point ∧ other ≠ started.jobData ↔
        other ∈ batch.done ∧ point = .published := by
      simp only [Batch.Has, busy, Option.some.injEq, Prod.mk.injEq]
      constructor
      · rintro ⟨member | ⟨rfl, _⟩, different⟩
        · exact member
        · exact absurd rfl different
      · exact fun member => ⟨.inl member, done other member.1⟩
    rw [older]
    split
    · rename_i last
      simp only [Batch.Has, List.mem_append, List.mem_singleton, reduceCtorEq, or_false, last,
        or_and_right]
      exact or_comm
    · simp only [Batch.Has, Option.some.injEq, Prod.mk.injEq]
      rw [or_comm, @eq_comm _ started.jobData, @eq_comm _ started.point.next]
  · intro other current
    split at current
    · cases current
    · rename_i last
      simp only [Option.some.injEq, Prod.mk.injEq] at current
      exact last current.2
  · intro other
    rw [insertions_proceed unfinished, mem_reach sound.distinct member]
    refine or_congr_right (and_congr_right fun present => not_congr ⟨fun same => ?_, ?_⟩)
    · rw [sound.insertion_unique present member same]
    · rintro same
      rw [same]

theorem Routed.step (valid : Routed state) (sound : ∀ index, (state.view index).Valid)
    {action : Action routing Key} (taken : state.step action = some after) : Routed after := by
  cases moves_of_step taken with
  | addJobs jobDataSet fresh => exact valid.addJobs fresh
  | insert call batch job now rest found idle left unknown =>
    exact valid.insert found idle left unknown
  | proceed call batch job point insertion found busy member own =>
    exact valid.proceed (sound _) rfl found busy member own
  | manager index store same => exact valid.manager same

theorem routed_of_reaches (reached : Reaches (@step Key _ routing) anyAction {} state) :
    Routed state := by
  refine @Reaches.invariant_with _ _ _ _ _ _ Routed (fun state => ∀ index, (state.view index).Valid)
    reached (fun _ earlier index => Store.valid_of_reaches (view_reaches earlier index)) ?_
    fun _ _ _ sound _ valid _ taken => valid.step sound taken
  exact ⟨List.nodup_nil, by simp, by simp, by simp⟩

private theorem Routed.same_index (valid : Routed state) {other : routing.Index}
    {insertion twin : Insertion} (here : insertion ∈ state.insertions index)
    (there : twin ∈ state.insertions other) (same : twin.jobData.jobId = insertion.jobData.jobId) :
    other = index := by
  obtain ⟨home, batch, listed, has⟩ := valid.known index insertion here
  obtain ⟨otherHome, otherBatch, otherListed, otherHas⟩ := valid.known other twin there
  have equal : twin.jobData = insertion.jobData :=
    List.inj_on_of_nodup_map valid.distinct
      (List.mem_flatMap.mpr ⟨_, otherListed, otherHas.mem_jobs⟩)
      (List.mem_flatMap.mpr ⟨_, listed, has.mem_jobs⟩) same
  rw [← home, ← otherHome, equal]

private theorem gone_of_unknown {store : Store} (sound : store.Valid) {jobId : Guid}
    (unknown : ∀ insertion ∈ store.insertions, insertion.jobData.jobId ≠ jobId) :
    Unknown store.tables jobId where
  queue row member same := by
    obtain ⟨insertion, present, _, guid⟩ := sound.exists_insertion member
    exact unknown insertion present (guid.trans same)
  params row member same := by
    obtain ⟨insertion, present, guid⟩ := sound.params.owned row member
    exact unknown insertion present (guid.trans same)
  generics row member same := by
    obtain ⟨insertion, present, guid⟩ := sound.generics.owned row member
    exact unknown insertion present (guid.trans same)

end Routed

private theorem queueNames_of_reaches {store : Store}
    (reached : Reaches (@Store.step Key _) anyAction {} store) :
    store.tables.queue.map (fun row => (row.jobGuid, row.queueName)) =
      store.insertions.map fun insertion =>
        (insertion.jobData.jobId, insertion.jobData.queueName) := by
  induction reached with
  | refl => rfl
  | @next before action after _ _ taken ih =>
    cases action with
    | insert jobData now =>
      simp only [Store.step] at taken
      split at taken <;> cases taken
      simp [Store.insert, Tables.insertMetaData, ih, getMetaDataForJob]
    | proceed jobId =>
      obtain ⟨insertion, _, rfl⟩ := Option.map_eq_some_iff.mp taken
      have moved (point : Point) : (reach before.insertions insertion.jobData.jobId point).map
          (fun insertion => (insertion.jobData.jobId, insertion.jobData.queueName)) =
            before.insertions.map fun insertion =>
              (insertion.jobData.jobId, insertion.jobData.queueName) :=
        map_updateWhere _ (by intro _; rfl) _
      unfold Store.proceed
      split
      · rw [Tables.copyParams_queue, moved]
        exact ih
      · rw [Tables.copyGenerics_queue, moved]
        exact ih
      · rw [moved]
        exact (map_updateWhere _ (by intro _; rfl) _).trans ih
      · exact ih
    | claim call scan =>
      simp only [Store.step] at taken
      split at taken <;> cases taken
      exact (map_updateWhere _ (by intro _; rfl) _).trans ih
    | read lockGuid rows =>
      simp only [Store.step] at taken
      split at taken <;> cases taken
      exact ih
    | mark mark jobId now =>
      simp only [Store.step] at taken
      split at taken <;> cases taken
      rw [Store.mark, mark.apply_eq]
      exact (map_updateWhere _ (by intro _; cases mark <;> rfl) _).trans ih

section Results

variable {state later : Shards routing} {index : routing.Index}

private theorem exists_insertion_of_row (reached : Reaches (@step Key _ routing) anyAction {} state)
    {row : SqlCommonDbOddJobMetaData} (member : row ∈ (state.view index).tables.queue) :
    ∃ insertion ∈ state.insertions index, insertion.jobData.jobId = row.jobGuid ∧
      insertion.jobData.queueName = row.queueName := by
  have listed : (row.jobGuid, row.queueName) ∈ (state.view index).tables.queue.map
      fun row => (row.jobGuid, row.queueName) := List.mem_map_of_mem member
  rw [queueNames_of_reaches (view_reaches reached index)] at listed
  obtain ⟨insertion, present, same⟩ := List.mem_map.mp listed
  exact ⟨insertion, present, congrArg Prod.fst same, congrArg Prod.snd same⟩

/-- The jobs of a queue are in the tables that the resolver has for it, and nowhere else: the
manager with these tables misses none of them, and whatever it fetches was published by a
batch, is of one of its queues, and has no row in any other tables. -/
theorem fetched_from_own_tables (reached : Reaches (@step Key _ routing) anyAction {} state) :
    (∀ other, ∀ row ∈ (state.view other).tables.queue, routing.indexFor row.queueName = other) ∧
    ∀ {lockGuid : Guid} {rows : List SqlQueueRowSet} {decoder : Decoder CliType Value}
      {jobs : List (SqlDbOddJob CliType Value)},
      Returns (state.view index).tables (fun q => q.lockGuid = some lockGuid) rows →
      toList (executeJoinQuery decoder rows) = .ok jobs →
      ∀ job ∈ jobs, routing.indexFor job.queue = index ∧
        (∃ batch ∈ state.batches, ∃ jobData ∈ batch.done, jobData.jobId = job.jobId ∧
          jobData.queueName = job.queue) ∧
        ∀ other, other ≠ index → Unknown (state.view other).tables job.jobId := by
  have valid := routed_of_reaches reached
  have sound (other : routing.Index) : (state.view other).Valid :=
    Store.valid_of_reaches (view_reaches reached other)
  have home (other : routing.Index) (row : SqlCommonDbOddJobMetaData)
      (member : row ∈ (state.view other).tables.queue) :
      routing.indexFor row.queueName = other := by
    obtain ⟨insertion, present, _, named⟩ := exists_insertion_of_row reached member
    rw [← named]
    exact (valid.known other insertion present).1
  refine ⟨home, ?_⟩
  intro lockGuid rows decoder jobs returned fetched job listed
  obtain ⟨row, present, locked, first, group, _, rfl, decoded⟩ :=
    exists_group_of_mem (sound index).rowGuids returned (mem_toList fetched listed)
  rw [decoder.ofGroup_eq_decode] at decoded
  obtain ⟨_, _, _, _, _, _, rfl⟩ := decoder.decode_eq_ok_iff.mp decoded
  obtain ⟨insertion, known, guid, named⟩ := exists_insertion_of_row reached present
  refine ⟨home index _ present, ?_, fun other different => ?_⟩
  · obtain ⟨twin, member, same, published⟩ :=
      (sound index).published_of_row present (.inr (by simp [of_decide_eq_true locked]))
    obtain rfl := (sound index).insertion_unique member known (same.trans guid.symm)
    obtain ⟨_, batch, listed, has⟩ := valid.known index twin known
    rw [published] at has
    rcases has with ⟨done, _⟩ | current
    · exact ⟨batch, listed, _, done, guid, named⟩
    · exact absurd current (valid.unfinished batch listed _)
  · apply gone_of_unknown (sound other)
    intro twin there same
    exact different (valid.same_index known there (same.trans guid.symm))

/-- A call of `AddJobs` keeps its jobs and their order, and what it has done. -/
private theorem batch_of_moves {call : Nat} {batch : Batch} (moved : Moves state later)
    (found : state.batches[call]? = some batch) : ∃ next, later.batches[call]? = some next ∧
      next.jobs = batch.jobs ∧ batch.done <+: next.done := by
  have stays : ∃ next, state.batches[call]? = some next ∧
      next.jobs = batch.jobs ∧ batch.done <+: next.done :=
    ⟨batch, found, rfl, List.prefix_rfl⟩
  have replaced {place : Nat} {old new : Batch} (here : state.batches[place]? = some old)
      (jobs : new.jobs = old.jobs) (done : old.done <+: new.done) :
      ∃ next, (state.batches.set place new)[call]? = some next ∧
        next.jobs = batch.jobs ∧ batch.done <+: next.done := by
    by_cases same : place = call
    · subst same
      obtain ⟨bound, _⟩ := List.getElem?_eq_some_iff.mp here
      obtain rfl := Option.some.inj (here.symm.trans found)
      exact ⟨new, List.getElem?_set_self bound, jobs, done⟩
    · rw [List.getElem?_set_ne same]
      exact stays
  cases moved with
  | addJobs jobDataSet fresh =>
    obtain ⟨bound, _⟩ := List.getElem?_eq_some_iff.mp found
    exact ⟨batch, (List.getElem?_append_left bound).trans found, rfl, List.prefix_rfl⟩
  | insert place old job now rest here idle left unknown =>
    exact replaced here (by simp [Batch.jobs, idle, left]) List.prefix_rfl
  | proceed place old job point insertion here busy member own =>
    apply replaced here
    · split <;> simp [Batch.jobs, busy]
    · split
      · exact List.prefix_append _ _
      · exact List.prefix_rfl
  | manager index store same => exact stays

private theorem batch_of_run {call : Nat} {batch : Batch}
    (run : Reaches (@step Key _ routing) anyAction state later)
    (found : state.batches[call]? = some batch) : ∃ next, later.batches[call]? = some next ∧
      next.jobs = batch.jobs ∧ batch.done <+: next.done := by
  induction run with
  | refl => exact ⟨batch, found, rfl, List.prefix_rfl⟩
  | next _ _ taken ih =>
    obtain ⟨middle, here, jobs, done⟩ := ih
    obtain ⟨next, there, same, more⟩ := batch_of_moves (moves_of_step taken) here
    exact ⟨next, there, same.trans jobs, done.trans more⟩

private theorem Routed.gone_of_rest (valid : Routed state)
    (sound : ∀ index, (state.view index).Valid) {call : Nat} {batch : Batch}
    (found : state.batches[call]? = some batch) {job : SerializableOddJob}
    (left : job ∈ batch.rest) (index : routing.Index) :
    Unknown (state.view index).tables job.jobId := by
  apply gone_of_unknown (sound index)
  intro insertion present same
  have present : insertion ∈ state.insertions index := present
  obtain ⟨_, other, listed, has⟩ := valid.known index insertion present
  have member := List.mem_iff_getElem?.mpr ⟨call, found⟩
  have jobs : job ∈ batch.jobs := List.mem_append_right _ left
  obtain rfl : insertion.jobData = job :=
    List.inj_on_of_nodup_map valid.distinct (List.mem_flatMap.mpr ⟨_, listed, has.mem_jobs⟩)
      (List.mem_flatMap.mpr ⟨_, member, jobs⟩) same
  obtain ⟨place, here⟩ := List.mem_iff_getElem?.mp listed
  by_cases own : place = call
  · subst own
    obtain rfl := Option.some.inj (found.symm.trans here)
    have begun : insertion.jobData ∈ batch.done ++ (batch.current.map Prod.fst).toList := by
      rcases has with ⟨done, _⟩ | current
      · exact List.mem_append_left _ done
      · exact List.mem_append_right _ (by simp [current])
    exact (List.nodup_append.mp (jobs_nodup valid.distinct member)).2.2 _ begun _ left rfl
  · exact apart_of_distinct valid.distinct own here found has.mem_jobs jobs rfl

/-- A batch is written in its order, whoever else works on the tables. Wherever it is looked at,
or cut off, the jobs before one place are whole in the tables of their queues, the one at this
place is hidden from every fetch, and of the others there is nothing. -/
theorem batches_publish_in_order (reached : Reaches (@step Key _ routing) anyAction {} state)
    (run : Reaches (@step Key _ routing) anyAction state later) {call : Nat} {batch : Batch}
    (found : state.batches[call]? = some batch) :
    ∃ next, later.batches[call]? = some next ∧ next.jobs = batch.jobs ∧
      batch.done <+: next.done ∧
      (∀ job ∈ next.done, Stored (later.view (routing.indexOf job)).tables job ∧
        ∃ row ∈ (later.view (routing.indexOf job)).tables.queue, row.jobGuid = job.jobId) ∧
      (∀ job point, next.current = some (job, point) → ∀ index, job.jobId ∉ later.fetched index ∧
        ∀ row ∈ (later.view index).tables.queue, row.jobGuid = job.jobId →
          row.status = .inserting ∧ row.lockGuid = none) ∧
      ∀ job ∈ next.rest, ∀ index, Unknown (later.view index).tables job.jobId := by
  have whole := reached.trans run
  have valid := routed_of_reaches whole
  have sound (index : routing.Index) : (later.view index).Valid :=
    Store.valid_of_reaches (view_reaches whole index)
  obtain ⟨next, here, jobs, done⟩ := batch_of_run run found
  have member := List.mem_iff_getElem?.mpr ⟨call, here⟩
  refine ⟨next, here, jobs, done, ?_, ?_, fun job left => valid.gone_of_rest sound here left⟩
  · intro job listed
    obtain ⟨insertion, present, rfl, published⟩ := valid.begun next member job .published
      (.inl ⟨listed, rfl⟩)
    obtain ⟨row, stored, _, guid⟩ := (sound _).exists_row present
    exact ⟨(sound _).stored present published, row, stored, guid⟩
  · intro job point current index
    obtain ⟨insertion, present, rfl, rfl⟩ := valid.begun next member job point (.inr current)
    have unfinished : insertion.point ≠ .published := by
      intro last
      exact valid.unfinished next member _ (last ▸ current)
    by_cases home : index = routing.indexOf insertion.jobData
    · subst home
      exact (sound _).hidden insertion present unfinished
    · have gone : Unknown (later.view index).tables insertion.jobData.jobId := by
        apply gone_of_unknown (sound index)
        intro twin there same
        exact home (valid.same_index present there same)
      refine ⟨fun fetched => ?_, fun row stored same => absurd same (gone.queue row stored)⟩
      obtain ⟨twin, there, same⟩ := Store.knows_iff.mp ((sound index).fetched _ fetched)
      exact home (valid.same_index present there same)

end Results

end Shards

/-- `GenerateMappings.TableConfigurations` -/
def tableConfigurations : Dictionary String TableConfiguration where
  entries := [
    ("console", {
      queueTableName := "consoleQueue"
      paramTableName := "consoleParam"
      jobMethodGenericParamTableName := "consoleGeneric"
      jobClaimLockTimeoutInSeconds := 30 }),
    ("counter", {
      queueTableName := "counterQueue"
      paramTableName := "counterParam"
      jobMethodGenericParamTableName := "counterGeneric"
      jobClaimLockTimeoutInSeconds := 30 })]
  distinct := by decide

def sampleRouting : Routing where
  resolver := {
    queueTableMappings := tableConfigurations
    defaultTableConfiguration }
  apart := by decide

def queuedJob (jobId : Guid) (queueName : String) : SerializableOddJob :=
  { Store.sampleJobData [Store.sampleArg 0 "5"] with jobId, queueName }

def consoleClaim : Claim Int := { Store.sampleClaim with queueNames := ["console"] }

/-- The first job of a batch is written and claimed, and the second one is begun. -/
def shardedRun : List (Shards.Action sampleRouting Int) := [
  .addJobs [queuedJob 7 "console", queuedJob 8 "counter"],
  .advance 0 0, .advance 0 0, .advance 0 0, .advance 0 0, .advance 0 0,
  .claim (sampleRouting.indexFor "console") consoleClaim [publishedRow (queuedJob 7 "console") 1 0]]

def shardedState : Shards sampleRouting :=
  (execute (fun _ _ => true) Shards.step {} shardedRun).getD {}

theorem shardedState_reached :
    Reaches (@Shards.step Int _ sampleRouting) anyAction {} shardedState := by
  have run : execute (fun _ _ => true) Shards.step {} shardedRun = some shardedState := rfl
  exact reaches_of_execute (fun _ _ _ => trivial) run

def shardedFetch : Except ClrException (List (SqlDbOddJob String String)) :=
  toList (executeJoinQuery Store.sampleDecoder (joinQuery
    ((shardedState.view (sampleRouting.indexFor "console")).tables.queue.filter
      fun q => q.lockGuid = some 40)
    (shardedState.view (sampleRouting.indexFor "console")).tables))

theorem fetched_from_own_tables_of_console : ∃ job, shardedFetch = .ok [job] ∧ job.jobId = 7 ∧
    Unknown (shardedState.view (sampleRouting.indexFor "counter")).tables job.jobId := by
  have done : shardedFetch = .ok [_] := rfl
  obtain ⟨_, fetched⟩ := @Shards.fetched_from_own_tables _ String String _ _ _
    (sampleRouting.indexFor "console") shardedState_reached
  obtain ⟨_, _, elsewhere⟩ := fetched (List.Perm.refl _) done _ List.mem_cons_self
  exact ⟨_, done, rfl, elsewhere _ (by decide)⟩

theorem batches_publish_in_order_of_two :
    (shardedState.batches.map fun batch => (batch.done.length, batch.current.isSome)) =
        [(1, true)] ∧
      Stored (shardedState.view (sampleRouting.indexFor "console")).tables
        (queuedJob 7 "console") := by
  have found : shardedState.batches[0]? = some {
      done := [queuedJob 7 "console"]
      current := some (queuedJob 8 "counter", .inserted)
      rest := [] } := rfl
  obtain ⟨next, same, _, _, done, _⟩ :=
    Shards.batches_publish_in_order shardedState_reached .refl found
  obtain rfl := Option.some.inj (found.symm.trans same)
  exact ⟨rfl, (done _ List.mem_cons_self).1⟩

end OddJob.Sql
