import OddJob.Data
import OddJob.Creator
import OddJob.Lib.Columns
import OddJob.Lib.Dictionary

/-! `BaseSqlJobQueueManager.UpdateJobMetadataAndParameters`: one `UPDATE` of the job and one
for each of its parameters, without a transaction around them. -/

namespace OddJob

/-- The value of the status column. -/
def JobStates.text : JobStates → String
  | .processed => "Processed"
  | .new => "New"
  | .failed => "Failed"
  | .retry => "Retry"
  | .inProgress => "InProgress"
  | .inserting => "Inserting"
  | .other text => text

def JobStates.ofText (text : String) : JobStates :=
  if text = "Processed" then .processed
  else if text = "New" then .new
  else if text = "Failed" then .failed
  else if text = "Retry" then .retry
  else if text = "InProgress" then .inProgress
  else if text = "Inserting" then .inserting
  else .other text

/-- `Char.IsWhiteSpace` -/
def isWhiteSpace (symbol : Char) : Bool :=
  let code := symbol.toNat
  (9 ≤ code && code ≤ 13) || code = 32 || code = 133 || code = 160 || code = 5760 ||
    (8192 ≤ code && code ≤ 8202) || code = 8232 || code = 8233 || code = 8239 || code = 8287 ||
    code = 12288

/-- `String.IsNullOrWhiteSpace` -/
def isNullOrWhiteSpace (text : Option String) : Bool :=
  text.all fun text => text.toList.all isWhiteSpace

namespace Sql

open Linq

inductive JobColumn where
  | id
  | jobGuid
  | typeExecutedOn
  | methodName
  | maxRetries
  | minRetryWait
  | lastAttempt
  | retryCount
  | status
  | queueName
  | doNotExecuteBefore
  | lockClaimTime
  | lockGuid
  | createdDate
  deriving DecidableEq, Repr

namespace JobColumn

/-- The type of the property; a status is free text. -/
def Value : JobColumn → Type
  | id | maxRetries | minRetryWait | retryCount => Int
  | jobGuid => Guid
  | typeExecutedOn | methodName | queueName => Option String
  | status => Option JobStates
  | lastAttempt | doNotExecuteBefore | lockClaimTime | createdDate => Option Ticks
  | lockGuid => Option Guid

def get : (column : JobColumn) → SqlCommonDbOddJobMetaData → column.Value
  | id, q => q.id
  | jobGuid, q => q.jobGuid
  | typeExecutedOn, q => some q.typeExecutedOn
  | methodName, q => some q.methodName
  | maxRetries, q => q.maxRetries
  | minRetryWait, q => q.minRetryWait
  | lastAttempt, q => q.lastAttempt
  | retryCount, q => q.retryCount
  | status, q => some q.status
  | queueName, q => some q.queueName
  | doNotExecuteBefore, q => q.doNotExecuteBefore
  | lockClaimTime, q => q.lockClaimTime
  | lockGuid, q => q.lockGuid
  | createdDate, q => q.createdDate

def set : (column : JobColumn) → column.Value → SqlCommonDbOddJobMetaData →
    SqlCommonDbOddJobMetaData
  | id, value, q => { q with id := value }
  | jobGuid, value, q => { q with jobGuid := value }
  | typeExecutedOn, some value, q => { q with typeExecutedOn := value }
  | methodName, some value, q => { q with methodName := value }
  | maxRetries, value, q => { q with maxRetries := value }
  | minRetryWait, value, q => { q with minRetryWait := value }
  | lastAttempt, value, q => { q with lastAttempt := value }
  | retryCount, value, q => { q with retryCount := value }
  | status, some value, q => { q with status := value }
  | queueName, some value, q => { q with queueName := value }
  | doNotExecuteBefore, value, q => { q with doNotExecuteBefore := value }
  | lockClaimTime, value, q => { q with lockClaimTime := value }
  | lockGuid, value, q => { q with lockGuid := value }
  | createdDate, value, q => { q with createdDate := value }
  | typeExecutedOn, none, q | methodName, none, q | status, none, q | queueName, none, q => q

/-- The `not null` columns take no null. -/
def accepts : (column : JobColumn) → column.Value → Bool
  | typeExecutedOn, none | methodName, none | status, none | queueName, none
  | createdDate, none => false
  | _, _ => true

end JobColumn

instance : Columns JobColumn SqlCommonDbOddJobMetaData where
  Value := JobColumn.Value
  get := JobColumn.get
  set := JobColumn.set
  accepts := JobColumn.accepts
  get_set column value row accepted := by
    cases column
    case typeExecutedOn | methodName | status | queueName => cases value <;> trivial
    all_goals rfl
  get_set_other column value row other different := by
    cases column
    case typeExecutedOn | methodName | status | queueName =>
      cases value
      · rfl
      · cases other <;> first | rfl | exact absurd rfl different
    all_goals cases other <;> first | rfl | exact absurd rfl different
  ext left right same := by
    obtain ⟨⟩ := left
    obtain ⟨⟩ := right
    have ids := same .id
    have guids := same .jobGuid
    have types := Option.some.inj (same .typeExecutedOn)
    have methods := Option.some.inj (same .methodName)
    have statuses := Option.some.inj (same .status)
    have queues := Option.some.inj (same .queueName)
    congr 1
    exacts [same .maxRetries, same .minRetryWait, same .lastAttempt, same .retryCount,
      same .doNotExecuteBefore, same .lockClaimTime, same .lockGuid, same .createdDate]

inductive ParamColumn where
  | jobGuid
  | paramOrdinal
  | serializedValue
  | serializedType
  | parameterName
  deriving DecidableEq, Repr

namespace ParamColumn

def Value : ParamColumn → Type
  | jobGuid => Guid
  | paramOrdinal => Int
  | serializedValue | serializedType | parameterName => Option String

def get : (column : ParamColumn) → SqlCommonOddJobParamMetaData → column.Value
  | jobGuid, s => s.jobGuid
  | paramOrdinal, s => s.paramOrdinal
  | serializedValue, s => s.serializedValue
  | serializedType, s => s.serializedType
  | parameterName, s => s.parameterName

def set : (column : ParamColumn) → column.Value → SqlCommonOddJobParamMetaData →
    SqlCommonOddJobParamMetaData
  | jobGuid, value, s => { s with jobGuid := value }
  | paramOrdinal, value, s => { s with paramOrdinal := value }
  | serializedValue, value, s => { s with serializedValue := value }
  | serializedType, value, s => { s with serializedType := value }
  | parameterName, value, s => { s with parameterName := value }

/-- The columns that say which parameter a row is. -/
def isKey : ParamColumn → Bool
  | jobGuid | paramOrdinal => true
  | _ => false

end ParamColumn

instance : Columns ParamColumn SqlCommonOddJobParamMetaData where
  Value := ParamColumn.Value
  get := ParamColumn.get
  set := ParamColumn.set
  accepts _ _ := true
  get_set column value row _ := by cases column <;> rfl
  get_set_other column value row other different := by
    cases column <;> cases other <;> first | rfl | exact absurd rfl different
  ext left right same := by
    obtain ⟨⟩ := left
    obtain ⟨⟩ := right
    have guids := same .jobGuid
    have ordinals := same .paramOrdinal
    congr 1
    exacts [same .serializedValue, same .serializedType, same .parameterName]

/-- The assignment can be stored, and the identity column is not set. -/
def settable (setter : Assignment JobColumn) : Bool :=
  setter.accepted && decide (setter.1 ≠ .id)

theorem settable_iff {setter : Assignment JobColumn} :
    settable setter = true ↔ setter.accepted = true ∧ setter.1 ≠ .id := by
  simp [settable]

/-- A database that lets everything be set but the identity column. Of two values for one
column it takes the last. -/
def jobDatabase : Database JobColumn :=
  .allowing settable fun _ allowed => (settable_iff.mp allowed).1

def paramDatabase : Database ParamColumn := .allowing (fun _ => true) fun _ _ => rfl

/-- A dictionary keyed by expressions, which are compared by identity, is a list here. -/
structure JobUpdateCommand where
  setJobMetadata : Option (List (Assignment JobColumn))
  setJobParameters : Option (Dictionary Int (Option (List (Assignment ParamColumn))))
  jobGuid : Guid
  oldStatusIfRequired : Option String

/-- The `Where` of `updatable`. -/
def JobUpdateCommand.updatable (commandData : JobUpdateCommand) (q : SqlCommonDbOddJobMetaData) :
    Bool :=
  q.jobGuid = commandData.jobGuid &&
    (isNullOrWhiteSpace commandData.oldStatusIfRequired ||
      some q.status.text = commandData.oldStatusIfRequired)

/-- The `Where` of `updatableParam`. -/
def updatableParam (jobGuid : Guid) (ordinal : Int) (q : SqlCommonOddJobParamMetaData) : Bool :=
  q.jobGuid = jobGuid && q.paramOrdinal = ordinal

/-- The loop over `SetJobParameters`. -/
def updateParameters (jobGuid : Guid) :
    List (Int × Option (List (Assignment ParamColumn))) → Tables → Tables × Except ClrException Bool
  | [], tables => (tables, .ok true)
  | (_, none) :: _, tables => (tables, .error .nullReference)
  | (_, some []) :: rest, tables => updateParameters jobGuid rest tables
  | (ordinal, some setters) :: rest, tables =>
    match paramDatabase.update (updatableParam jobGuid ordinal) setters tables.params with
    | none => (tables, .error .database)
    | some params =>
      if tables.params.any (updatableParam jobGuid ordinal) then
        updateParameters jobGuid rest { tables with params }
      else ({ tables with params }, .ok false)

/-- `updateCommand.Update()`, which is left out where there is nothing to set. -/
def updateCommand (commandData : JobUpdateCommand) (setters : List (Assignment JobColumn))
    (queue : List SqlCommonDbOddJobMetaData) (database : Database JobColumn := jobDatabase) :
    Option (List SqlCommonDbOddJobMetaData) :=
  match setters with
  | [] => some queue
  | _ => database.update commandData.updatable setters queue

def updateJobMetadataAndParameters (commandData : JobUpdateCommand) (tables : Tables)
    (database : Database JobColumn := jobDatabase) : Tables × Except ClrException Bool :=
  match commandData.setJobMetadata with
  | none => (tables, .error .nullReference)
  | some setters =>
    let ableToUpdateJob := tables.queue.any commandData.updatable
    match updateCommand commandData setters tables.queue database with
    | none => (tables, .error .database)
    | some queue =>
      match ableToUpdateJob, commandData.setJobParameters with
      | true, some parameters =>
        updateParameters commandData.jobGuid parameters.entries { tables with queue }
      | able, _ => ({ tables with queue }, .ok able)

section Parameters

variable {jobGuid : Guid} {setters : List (Assignment ParamColumn)}

/-- No setter renames its parameter. -/
def KeepsKey (setters : List (Assignment ParamColumn)) : Prop :=
  ∀ setter ∈ setters, setter.1.isKey = false

instance : DecidablePred KeepsKey := fun setters =>
  inferInstanceAs (Decidable (∀ setter ∈ setters, setter.1.isKey = false))

theorem KeepsKey.jobGuid_assign (keeps : KeepsKey setters) (s : SqlCommonOddJobParamMetaData) :
    (assign setters s).jobGuid = s.jobGuid := by
  apply get_assign_other ParamColumn.jobGuid
  rintro ⟨column, value⟩ member rfl
  cases keeps _ member

theorem KeepsKey.paramOrdinal_assign (keeps : KeepsKey setters)
    (s : SqlCommonOddJobParamMetaData) : (assign setters s).paramOrdinal = s.paramOrdinal := by
  apply get_assign_other ParamColumn.paramOrdinal
  rintro ⟨column, value⟩ member rfl
  cases keeps _ member

theorem KeepsKey.updatableParam_assign (keeps : KeepsKey setters) (ordinal : Int)
    (s : SqlCommonOddJobParamMetaData) :
    updatableParam jobGuid ordinal (assign setters s) = updatableParam jobGuid ordinal s := by
  rw [updatableParam, updatableParam, keeps.jobGuid_assign, keeps.paramOrdinal_assign]

/-- What a command has for one parameter row. -/
def settersFor (jobGuid : Guid) (parameters : List (Int × Option (List (Assignment ParamColumn))))
    (s : SqlCommonOddJobParamMetaData) : List (Assignment ParamColumn) :=
  if s.jobGuid = jobGuid then
    ((parameters.find? fun entry => entry.1 = s.paramOrdinal).bind Prod.snd).getD []
  else []

theorem settersFor_cons (jobGuid : Guid) (ordinal : Int) (setters : List (Assignment ParamColumn))
    (rest : List (Int × Option (List (Assignment ParamColumn)))) (s : SqlCommonOddJobParamMetaData) :
    settersFor jobGuid ((ordinal, some setters) :: rest) s =
      if updatableParam jobGuid ordinal s then setters else settersFor jobGuid rest s := by
  by_cases own : s.jobGuid = jobGuid <;> by_cases named : s.paramOrdinal = ordinal <;>
    simp [settersFor, updatableParam, own, named, Ne.symm]

theorem settersFor_of_absent {parameters : List (Int × Option (List (Assignment ParamColumn)))}
    {s : SqlCommonOddJobParamMetaData} (absent : s.paramOrdinal ∉ parameters.map Prod.fst) :
    settersFor jobGuid parameters s = [] := by
  have missing : parameters.find? (fun entry => entry.1 = s.paramOrdinal) = none := by
    rw [List.find?_eq_none]
    intro entry member same
    exact absent (List.mem_map.mpr ⟨entry, member, of_decide_eq_true same⟩)
  rw [settersFor, missing]
  exact ite_self []

private theorem paramOrdinal_of_updatable {ordinal : Int} {s : SqlCommonOddJobParamMetaData}
    (selected : updatableParam jobGuid ordinal s = true) : s.paramOrdinal = ordinal := by
  simp only [updatableParam, Bool.and_eq_true, decide_eq_true_eq] at selected
  exact selected.2

private theorem assign_settersFor (keeps : KeepsKey setters) {ordinal : Int}
    {rest : List (Int × Option (List (Assignment ParamColumn)))}
    (fresh : ordinal ∉ rest.map Prod.fst) (rows : List SqlCommonOddJobParamMetaData) :
    (updateWhere (updatableParam jobGuid ordinal) (assign setters) rows).map
        (fun s => assign (settersFor jobGuid rest s) s) =
      rows.map fun s => assign (settersFor jobGuid ((ordinal, some setters) :: rest) s) s := by
  rw [updateWhere, List.map_map]
  apply List.map_congr_left
  intro s _
  rw [settersFor_cons]
  by_cases selected : updatableParam jobGuid ordinal s = true
  · have absent : (assign setters s).paramOrdinal ∉ rest.map Prod.fst := by
      rw [keeps.paramOrdinal_assign, paramOrdinal_of_updatable selected]
      exact fresh
    simp only [Function.comp_apply, selected, ↓reduceIte, settersFor_of_absent absent]
    rfl
  · simp only [Function.comp_apply, selected, Bool.false_eq_true, ↓reduceIte]

private theorem any_updatable_assign (keeps : KeepsKey setters) (ordinal other : Int)
    (rows : List SqlCommonOddJobParamMetaData) :
    (updateWhere (updatableParam jobGuid ordinal) (assign setters) rows).any
      (updatableParam jobGuid other) = rows.any (updatableParam jobGuid other) := by
  rw [updateWhere, List.any_map]
  congr 1
  funext s
  rw [Function.comp_apply]
  split
  · exact keeps.updatableParam_assign other s
  · rfl

private theorem rest_eq_nil_iff {Entry : Type} {holds : Entry → Prop} {done left whole : List Entry}
    (split : whole = done ++ left) (present : ∀ entry ∈ done, holds entry)
    (missing : ∀ entry ∈ left.head?, ¬ holds entry) : left = [] ↔ ∀ entry ∈ whole, holds entry := by
  subst split
  constructor
  · rintro rfl
    simpa using present
  · intro all
    cases left with
    | nil => rfl
    | cons entry rest =>
      exact absurd (all entry (List.mem_append_right _ List.mem_cons_self)) (missing entry rfl)

/-- The loop updates the parameters in order and stops at the first that has no row. -/
theorem updateParameters_eq (jobGuid : Guid)
    {parameters : List (Int × Option (List (Assignment ParamColumn)))}
    (distinct : (parameters.map Prod.fst).Nodup)
    (given : ∀ entry ∈ parameters, ∃ setters, entry.2 = some setters ∧ KeepsKey setters)
    (tables : Tables) :
    ∃ done left, parameters = done ++ left ∧
      updateParameters jobGuid parameters tables =
        ({ tables with params :=
            tables.params.map fun s => assign (settersFor jobGuid done s) s }, .ok left.isEmpty) ∧
      (∀ entry ∈ done, entry.2 ≠ some [] →
        tables.params.any (updatableParam jobGuid entry.1) = true) ∧
      ∀ entry ∈ left.head?, ¬ (entry.2 ≠ some [] →
        tables.params.any (updatableParam jobGuid entry.1) = true) := by
  induction parameters generalizing tables with
  | nil =>
    refine ⟨[], [], rfl, ?_, by simp, by simp⟩
    simp [updateParameters, settersFor, assign]
  | cons entry rest ih =>
    obtain ⟨ordinal, command⟩ := entry
    obtain ⟨setters, same, keeps⟩ := given (ordinal, command) List.mem_cons_self
    obtain rfl : command = some setters := same
    obtain ⟨fresh, distinct⟩ := List.nodup_cons.mp distinct
    have later := ih distinct fun entry member => given entry (List.mem_cons_of_mem _ member)
    cases setters with
    | nil =>
      obtain ⟨done, left, split, result, present, missing⟩ := later tables
      refine ⟨(ordinal, some []) :: done, left, by rw [split]; rfl, ?_, ?_, missing⟩
      · have absent : ordinal ∉ done.map Prod.fst := by
          intro member
          exact fresh (by rw [split, List.map_append]; exact List.mem_append_left _ member)
        rw [updateParameters, result, ← assign_settersFor keeps absent]
        congr 2
        simp [updateWhere, assign]
      · intro entry member nonempty
        rcases List.mem_cons.mp member with rfl | older
        · exact absurd rfl nonempty
        · exact present entry older nonempty
    | cons first more =>
      have accepted : paramDatabase.update (updatableParam jobGuid ordinal) (first :: more)
          tables.params = some (updateWhere (updatableParam jobGuid ordinal)
            (assign (first :: more)) tables.params) :=
        Database.allowing_update_eq_some fun _ _ => rfl
      cases found : tables.params.any (updatableParam jobGuid ordinal) with
      | true =>
        obtain ⟨done, left, split, result, present, missing⟩ := later { tables with
          params := updateWhere (updatableParam jobGuid ordinal) (assign (first :: more))
            tables.params }
        simp only [any_updatable_assign keeps] at present missing
        refine ⟨(ordinal, some (first :: more)) :: done, left, by rw [split]; rfl, ?_, ?_, missing⟩
        · have absent : ordinal ∉ done.map Prod.fst := by
            intro member
            exact fresh (by rw [split, List.map_append]; exact List.mem_append_left _ member)
          simp only [updateParameters, accepted, found, ↓reduceIte, result]
          rw [assign_settersFor keeps absent]
        · intro entry member nonempty
          rcases List.mem_cons.mp member with rfl | older
          · exact found
          · exact present entry older nonempty
      | false =>
        refine ⟨[], (ordinal, some (first :: more)) :: rest, rfl, ?_, by simp, ?_⟩
        · simp only [updateParameters, accepted, found, Bool.false_eq_true, ↓reduceIte]
          have unselected : updateWhere (updatableParam jobGuid ordinal) (assign (first :: more))
              tables.params = tables.params.map fun s => assign (settersFor jobGuid [] s) s := by
            apply List.map_congr_left
            intro s member
            have none := List.any_eq_false.mp found s member
            simp [none, settersFor, assign]
          rw [unselected]
          rfl
        · intro entry member every
          obtain rfl : (ordinal, some (first :: more)) = entry := by simpa using member
          exact absurd (every (by simp)) (Bool.eq_false_iff.mp found)

end Parameters

namespace JobUpdateCommand

def metadata (commandData : JobUpdateCommand) : List (Assignment JobColumn) :=
  commandData.setJobMetadata.getD []

def parameters (commandData : JobUpdateCommand) :
    List (Int × Option (List (Assignment ParamColumn))) :=
  commandData.setJobParameters.elim [] Dictionary.entries

/-- Nothing is null where the code or the database needs a value, and the parameter rows
keep their keys. -/
structure WellFormed (commandData : JobUpdateCommand) : Prop where
  metadata : ∃ setters, commandData.setJobMetadata = some setters ∧
    ∀ setter ∈ setters, settable setter = true
  parameters : ∀ entry ∈ commandData.parameters,
    ∃ setters, entry.2 = some setters ∧ KeepsKey setters

/-- There is a row for the job, in the state that is required. -/
def Finds (commandData : JobUpdateCommand) (tables : Tables) : Prop :=
  ∃ q ∈ tables.queue, commandData.updatable q = true

/-- The parameter has a row, unless there is nothing to set. -/
def FindsParam (commandData : JobUpdateCommand) (tables : Tables)
    (entry : Int × Option (List (Assignment ParamColumn))) : Prop :=
  entry.2 ≠ some [] →
    ∃ s ∈ tables.params, s.jobGuid = commandData.jobGuid ∧ s.paramOrdinal = entry.1

variable {commandData : JobUpdateCommand} {tables : Tables}

theorem finds_iff : commandData.Finds tables ↔ tables.queue.any commandData.updatable = true := by
  simp [Finds]

theorem findsParam_iff {entry : Int × Option (List (Assignment ParamColumn))} :
    commandData.FindsParam tables entry ↔ (entry.2 ≠ some [] →
      tables.params.any (updatableParam commandData.jobGuid entry.1) = true) := by
  simp [FindsParam, updatableParam]

/-- The tables once the job has been updated. -/
def updated (commandData : JobUpdateCommand) (tables : Tables) : Tables :=
  { tables with
    queue := updateWhere commandData.updatable (assign commandData.metadata) tables.queue }

theorem parameters_distinct (commandData : JobUpdateCommand) :
    (commandData.parameters.map Prod.fst).Nodup := by
  rw [parameters]
  cases commandData.setJobParameters with
  | none => exact List.nodup_nil
  | some parameters => exact parameters.distinct

/-- The job is updated first; its parameters follow if it was there. -/
theorem WellFormed.run_eq (valid : commandData.WellFormed) (tables : Tables) :
    updateJobMetadataAndParameters commandData tables =
      if tables.queue.any commandData.updatable then
        updateParameters commandData.jobGuid commandData.parameters (commandData.updated tables)
      else (commandData.updated tables, .ok false) := by
  obtain ⟨setters, same, accepted⟩ := valid.metadata
  have done : updateCommand commandData setters tables.queue =
      some (commandData.updated tables).queue := by
    simp only [updated, JobUpdateCommand.metadata, same, Option.getD_some]
    cases setters with
    | nil => simp [updateCommand, updateWhere, assign]
    | cons first rest => exact Database.allowing_update_eq_some accepted
  simp only [updateJobMetadataAndParameters, same, done, JobUpdateCommand.parameters]
  cases tables.queue.any commandData.updatable <;> cases commandData.setJobParameters <;> rfl

/-- A command that returns true has updated the job and all its parameters. -/
theorem WellFormed.run_eq_true_iff (valid : commandData.WellFormed) {after : Tables} :
    updateJobMetadataAndParameters commandData tables = (after, .ok true) ↔
      commandData.Finds tables ∧
      (∀ entry ∈ commandData.parameters, commandData.FindsParam tables entry) ∧
      after = { commandData.updated tables with
        params := tables.params.map fun s =>
          assign (settersFor commandData.jobGuid commandData.parameters s) s } := by
  rw [valid.run_eq, finds_iff]
  simp only [findsParam_iff]
  cases found : tables.queue.any commandData.updatable with
  | false => simp
  | true =>
    obtain ⟨done, left, split, result, present, missing⟩ :=
      updateParameters_eq commandData.jobGuid commandData.parameters_distinct valid.parameters
        (commandData.updated tables)
    simp only [↓reduceIte, result, Prod.mk.injEq, Except.ok.injEq, List.isEmpty_iff, true_and]
    have complete : left = [] ↔ ∀ entry ∈ commandData.parameters, entry.2 ≠ some [] →
        tables.params.any (updatableParam commandData.jobGuid entry.1) = true :=
      rest_eq_nil_iff split present missing
    rw [← complete, and_comm]
    apply and_congr_right
    rintro rfl
    rw [split, List.append_nil, eq_comm]
    rfl

end JobUpdateCommand

def editedTables : Tables where
  queue := [{
    id := 1
    jobGuid := 7
    typeExecutedOn := "Jobs.SampleJob, Jobs"
    methodName := "Add"
    maxRetries := 1
    minRetryWait := 60
    lastAttempt := none
    retryCount := 0
    status := .new
    queueName := "default"
    doNotExecuteBefore := none
    lockClaimTime := none
    lockGuid := none
    createdDate := some 10 }]
  params := [{ jobGuid := 7, paramOrdinal := 0, serializedValue := some "1" }]

/-- Move the job to another queue, and give the parameters with these ordinals a value. -/
def moveAndSet (queueName : Option String) (ordinals : List Int) (distinct : ordinals.Nodup) :
    JobUpdateCommand where
  setJobMetadata := some [⟨.queueName, queueName⟩]
  setJobParameters := some {
    entries := ordinals.map fun ordinal => (ordinal, some [⟨.serializedValue, some "2"⟩])
    distinct := by simpa [Function.comp_def] using distinct }
  jobGuid := 7
  oldStatusIfRequired := some "New"

/-- Turn the first parameter into the second one, and then give the second one a value. -/
def renumberAndSet : JobUpdateCommand where
  setJobMetadata := some []
  setJobParameters := some {
    entries := [(0, some [⟨.paramOrdinal, (1 : Int)⟩]), (1, some [⟨.serializedValue, some "2"⟩])]
    distinct := by decide }
  jobGuid := 7
  oldStatusIfRequired := none

end Sql

end OddJob
