import OddJob.Sql.Update

/-! `OddJobRemotingHandler.Handle(JobUpdateViewModel)`: an operator's edit of a job, turned
into one update command. -/

namespace OddJob.Presentation

open Linq Sql

structure UpdateForParam where
  paramOrdinal : Int
  updateParamType : Bool := false
  newParamType : Option String := none
  updateParamValue : Bool := false
  newParamValue : Option String := none

structure UpdateForJob where
  jobGuid : Guid
  oldStatus : Option String := none
  updateRetryCount : Bool := false
  newMaxRetryCount : Int := 0
  requireOldStatus : Bool := false
  updateMethodName : Bool := false
  newMethodName : Option String := none
  updateQueueName : Bool := false
  newQueueName : Option String := none
  updateStatus : Bool := false
  newStatus : Option String := none
  paramUpdates : Option (List UpdateForParam) := some []

structure JobUpdateViewModel where
  updateData : Option UpdateForJob

def buildParamUpdateSet (updateForParam : UpdateForParam) :
    Int × Option (List (Assignment ParamColumn)) :=
  let updateDict : List (Assignment ParamColumn) :=
    (if updateForParam.updateParamType then [⟨.serializedType, updateForParam.newParamType⟩]
      else []) ++
    (if updateForParam.updateParamValue then [⟨.serializedValue, updateForParam.newParamValue⟩]
      else [])
  (updateForParam.paramOrdinal, some updateDict)

/-- The `updateSet` of `Handle`. -/
def UpdateForJob.updateSet (data : UpdateForJob) : List (Assignment JobColumn) :=
  -- the method name is guarded by the new queue name
  (if data.updateMethodName && !isNullOrWhiteSpace data.newQueueName then
    [⟨.methodName, data.newMethodName⟩] else []) ++
  (if data.updateQueueName && !isNullOrWhiteSpace data.newQueueName then
    [⟨.queueName, data.newQueueName⟩] else []) ++
  (if data.updateRetryCount then [⟨.maxRetries, data.newMaxRetryCount⟩] else []) ++
  (if data.updateStatus && !isNullOrWhiteSpace data.newStatus then
    [⟨.status, data.newStatus.map JobStates.ofText⟩] else [])

def UpdateForJob.command (data : UpdateForJob) (updates : List UpdateForParam)
    (distinct : (updates.map UpdateForParam.paramOrdinal).Nodup) : JobUpdateCommand where
  setJobMetadata := some data.updateSet
  setJobParameters := some {
    entries := updates.map buildParamUpdateSet
    distinct := by simpa [buildParamUpdateSet, Function.comp_def] using distinct }
  jobGuid := data.jobGuid
  oldStatusIfRequired := if data.requireOldStatus then data.oldStatus else some ""

/-- `ToDictionary` refuses two updates of one parameter. -/
def handle (input : JobUpdateViewModel) (tables : Tables) : Tables × Except ClrException Bool :=
  match input.updateData with
  | none => (tables, .error .nullReference)
  | some data =>
    match data.paramUpdates with
    | none => (tables, .error .argumentNull)
    | some updates =>
      if distinct : (updates.map UpdateForParam.paramOrdinal).Nodup then
        updateJobMetadataAndParameters (data.command updates distinct) tables
      else (tables, .error .argument)

/-- The new text of a field, if it is flagged and not blank. -/
def chosen (flag : Bool) (newValue : Option String) : Option String :=
  if flag && !isNullOrWhiteSpace newValue then newValue else none

namespace UpdateForJob

def edit (data : UpdateForJob) (q : SqlCommonDbOddJobMetaData) : SqlCommonDbOddJobMetaData :=
  { q with
    methodName := (chosen data.updateMethodName data.newMethodName).getD q.methodName
    queueName := (chosen data.updateQueueName data.newQueueName).getD q.queueName
    maxRetries := if data.updateRetryCount then data.newMaxRetryCount else q.maxRetries
    status := ((chosen data.updateStatus data.newStatus).map JobStates.ofText).getD q.status }

end UpdateForJob

def UpdateForParam.edit (update : UpdateForParam) (s : SqlCommonOddJobParamMetaData) :
    SqlCommonOddJobParamMetaData :=
  { s with
    serializedType := if update.updateParamType then update.newParamType else s.serializedType
    serializedValue := if update.updateParamValue then update.newParamValue else s.serializedValue }

/-- The tables in which every flagged field of the job has its new value, and nothing else
has changed. -/
def UpdateForJob.edited (data : UpdateForJob) (updates : List UpdateForParam) (tables : Tables) :
    Tables :=
  { tables with
    queue := tables.queue.map fun q => if q.jobGuid = data.jobGuid then data.edit q else q
    params := tables.params.map fun s =>
      if s.jobGuid = data.jobGuid then
        ((updates.find? fun update => update.paramOrdinal = s.paramOrdinal).elim s fun update =>
          update.edit s)
      else s }

namespace UpdateForJob

/-- The update is told to be impossible: the job is not there in the required state, or a
parameter that is to be changed is not there. -/
def Refused (data : UpdateForJob) (updates : List UpdateForParam) (tables : Tables) : Prop :=
  (¬ ∃ q ∈ tables.queue, q.jobGuid = data.jobGuid ∧
    (data.requireOldStatus = true → isNullOrWhiteSpace data.oldStatus = false →
      some q.status.text = data.oldStatus)) ∨
  ∃ update ∈ updates, (update.updateParamType || update.updateParamValue) = true ∧
    ∀ s ∈ tables.params, s.jobGuid = data.jobGuid → s.paramOrdinal ≠ update.paramOrdinal

/-- The guard of the method name gives what a guard by the new method name would give. -/
def NamesMethod (data : UpdateForJob) (tables : Tables) : Prop :=
  data.updateMethodName = true →
    isNullOrWhiteSpace data.newMethodName = isNullOrWhiteSpace data.newQueueName ∨
    data.newMethodName = none ∨
    ∀ q ∈ tables.queue, q.jobGuid = data.jobGuid → data.newMethodName = some q.methodName

variable {data : UpdateForJob} {updates : List UpdateForParam} {tables : Tables}
  {distinct : (updates.map UpdateForParam.paramOrdinal).Nodup}

theorem finds_command_iff : (data.command updates distinct).Finds tables ↔
    ∃ q ∈ tables.queue, q.jobGuid = data.jobGuid ∧
      (data.requireOldStatus = true → isNullOrWhiteSpace data.oldStatus = false →
        some q.status.text = data.oldStatus) := by
  have blank : isNullOrWhiteSpace (some "") = true := by decide
  cases required : data.requireOldStatus <;> cases old : isNullOrWhiteSpace data.oldStatus <;>
    simp [JobUpdateCommand.Finds, JobUpdateCommand.updatable, command, required, old, blank]

theorem findsParam_command_iff {update : UpdateForParam} :
    (data.command updates distinct).FindsParam tables (buildParamUpdateSet update) ↔
      ((update.updateParamType || update.updateParamValue) = true →
        ∃ s ∈ tables.params, s.jobGuid = data.jobGuid ∧ s.paramOrdinal = update.paramOrdinal) := by
  cases type : update.updateParamType <;> cases value : update.updateParamValue <;>
    simp [JobUpdateCommand.FindsParam, buildParamUpdateSet, command, type, value]

theorem refused_iff : data.Refused updates tables ↔
    ¬ ((data.command updates distinct).Finds tables ∧
      ∀ entry ∈ (data.command updates distinct).parameters,
        (data.command updates distinct).FindsParam tables entry) := by
  have listed : (data.command updates distinct).parameters = updates.map buildParamUpdateSet := rfl
  rw [listed, List.forall_mem_map, not_and_or, finds_command_iff, Refused]
  simp only [findsParam_command_iff]
  push Not
  rfl

theorem keepsKey_command (entry : Int × Option (List (Assignment ParamColumn)))
    (member : entry ∈ (data.command updates distinct).parameters) :
    ∃ setters, entry.2 = some setters ∧ KeepsKey setters := by
  obtain ⟨update, _, rfl⟩ := List.mem_map.mp
    (member : entry ∈ updates.map buildParamUpdateSet)
  refine ⟨_, rfl, ?_⟩
  intro setter listed
  rcases List.mem_append.mp listed with type | value
  · split at type
    · rw [List.mem_singleton.mp type]
      rfl
    · cases type
  · split at value
    · rw [List.mem_singleton.mp value]
      rfl
    · cases value

theorem assign_buildParamUpdateSet (update : UpdateForParam)
    (s : SqlCommonOddJobParamMetaData) :
    assign ((buildParamUpdateSet update).2.getD []) s = update.edit s := by
  cases type : update.updateParamType <;> cases value : update.updateParamValue <;>
    simp [buildParamUpdateSet, UpdateForParam.edit, assign, Columns.set, ParamColumn.set, type,
      value]

theorem assign_settersFor_command (s : SqlCommonOddJobParamMetaData) :
    assign (settersFor data.jobGuid (data.command updates distinct).parameters s) s =
      if s.jobGuid = data.jobGuid then
        ((updates.find? fun update => update.paramOrdinal = s.paramOrdinal).elim s fun update =>
          update.edit s)
      else s := by
  have listed : (data.command updates distinct).parameters = updates.map buildParamUpdateSet := rfl
  rw [settersFor, listed, List.find?_map]
  split
  · have same : ((fun entry : Int × Option (List (Assignment ParamColumn)) =>
        decide (entry.1 = s.paramOrdinal)) ∘ buildParamUpdateSet) =
          fun update => decide (update.paramOrdinal = s.paramOrdinal) := rfl
    rw [same]
    cases updates.find? fun update => decide (update.paramOrdinal = s.paramOrdinal) with
    | none => rfl
    | some update => exact assign_buildParamUpdateSet update s
  · rfl

/-- The method name that the update leaves behind. -/
def storedMethodName (data : UpdateForJob) (q : SqlCommonDbOddJobMetaData) : String :=
  if data.updateMethodName && !isNullOrWhiteSpace data.newQueueName then
    data.newMethodName.getD q.methodName
  else q.methodName

private theorem foldl_ite (chosen : Bool) (setter : Assignment JobColumn)
    (q : SqlCommonDbOddJobMetaData) :
    (if chosen then [setter] else []).foldl
        (fun row assignment => Columns.set assignment.1 assignment.2 row) q =
      if chosen then Columns.set setter.1 setter.2 q else q := by
  cases chosen <;> rfl

private theorem set_queueName (flag : Bool) (newValue : Option String)
    (q : SqlCommonDbOddJobMetaData) :
    (if flag && !isNullOrWhiteSpace newValue then Columns.set JobColumn.queueName newValue q
      else q) = { q with queueName := (chosen flag newValue).getD q.queueName } := by
  rw [chosen]
  cases newValue with
  | none => cases flag <;> rfl
  | some text => split <;> rfl

private theorem set_status (flag : Bool) (newValue : Option String)
    (q : SqlCommonDbOddJobMetaData) :
    (if flag && !isNullOrWhiteSpace newValue then
        Columns.set JobColumn.status (newValue.map JobStates.ofText) q else q) =
      { q with status := ((chosen flag newValue).map JobStates.ofText).getD q.status } := by
  rw [chosen]
  cases newValue with
  | none => cases flag <;> rfl
  | some text => split <;> rfl

/-- Only the method name can differ from what the operator asked for. -/
theorem assign_updateSet (data : UpdateForJob) (q : SqlCommonDbOddJobMetaData) :
    assign data.updateSet q = { data.edit q with methodName := data.storedMethodName q } := by
  have methodName : (if data.updateMethodName && !isNullOrWhiteSpace data.newQueueName then
      Columns.set JobColumn.methodName data.newMethodName q else q) =
        { q with methodName := data.storedMethodName q } := by
    rw [storedMethodName]
    cases data.newMethodName <;> split <;> rfl
  have maxRetries (row : SqlCommonDbOddJobMetaData) : (if data.updateRetryCount then
      Columns.set JobColumn.maxRetries data.newMaxRetryCount row else row) =
        { row with maxRetries :=
          if data.updateRetryCount then data.newMaxRetryCount else row.maxRetries } := by
    cases data.updateRetryCount <;> rfl
  simp only [updateSet, assign, List.foldl_append, foldl_ite, methodName, set_queueName,
    maxRetries, set_status]
  rfl

/-- The stored name is the one that was asked for where the guard does no harm. -/
theorem storedMethodName_eq_iff (data : UpdateForJob) (q : SqlCommonDbOddJobMetaData) :
    data.storedMethodName q =
        (chosen data.updateMethodName data.newMethodName).getD q.methodName ↔
      (data.updateMethodName = true →
        isNullOrWhiteSpace data.newMethodName = isNullOrWhiteSpace data.newQueueName ∨
        data.newMethodName = none ∨ data.newMethodName = some q.methodName) := by
  rw [storedMethodName, chosen]
  cases data.updateMethodName with
  | false => simp
  | true =>
    cases data.newMethodName with
    | none => simp
    | some text =>
      cases isNullOrWhiteSpace (some text) <;> cases isNullOrWhiteSpace data.newQueueName <;>
        simp [eq_comm]

/-- A null method name that gets past the guard is refused by the database. -/
theorem not_true_of_null (named : data.updateMethodName = true) (null : data.newMethodName = none)
    (guarded : isNullOrWhiteSpace data.newQueueName = false) (after : Tables) :
    updateJobMetadataAndParameters (data.command updates distinct) tables ≠ (after, .ok true) := by
  obtain ⟨rest, first⟩ : ∃ rest : List (Assignment JobColumn),
      data.updateSet = ⟨.methodName, none⟩ :: rest := by
    simp only [updateSet, named, guarded, null, Bool.not_false, Bool.and_self, ↓reduceIte,
      List.cons_append]
    exact ⟨_, rfl⟩
  have setters : (data.command updates distinct).setJobMetadata = some data.updateSet := rfl
  have refused : settable ⟨.methodName, none⟩ = false := rfl
  cases found : tables.queue.any (data.command updates distinct).updatable <;>
    simp [updateJobMetadataAndParameters, setters, updateCommand, Database.update, jobDatabase,
      Database.allowing, first, found, refused]

private theorem some_of_not_blank {text : Option String} (given : isNullOrWhiteSpace text = false) :
    ∃ value, text = some value := by
  cases text with
  | none => cases given
  | some value => exact ⟨value, rfl⟩

theorem wellFormed_command (named : data.updateMethodName = true → data.newMethodName = none →
    isNullOrWhiteSpace data.newQueueName = true) : (data.command updates distinct).WellFormed := by
  refine ⟨⟨_, rfl, ?_⟩, keepsKey_command⟩
  intro setter member
  simp only [updateSet, List.mem_append] at member
  rcases member with ((methodName | queueName) | maxRetries) | status
  · split at methodName
    · rename_i guard
      obtain rfl := List.mem_singleton.mp methodName
      simp only [Bool.and_eq_true, Bool.not_eq_true'] at guard
      cases name : data.newMethodName with
      | none => exact absurd (named guard.1 name) (by simp [guard.2])
      | some text => rfl
    · cases methodName
  · split at queueName
    · rename_i guard
      obtain rfl := List.mem_singleton.mp queueName
      simp only [Bool.and_eq_true, Bool.not_eq_true'] at guard
      obtain ⟨text, same⟩ := some_of_not_blank guard.2
      rw [same]
      rfl
    · cases queueName
  · split at maxRetries
    · obtain rfl := List.mem_singleton.mp maxRetries
      rfl
    · cases maxRetries
  · split at status
    · rename_i guard
      obtain rfl := List.mem_singleton.mp status
      simp only [Bool.and_eq_true, Bool.not_eq_true'] at guard
      obtain ⟨text, same⟩ := some_of_not_blank guard.2
      rw [same]
      rfl
    · cases status

/-- A job that was found is edited as asked exactly where its method name is. -/
theorem updated_eq_iff (guids : (tables.queue.map SqlCommonDbOddJobMetaData.jobGuid).Nodup)
    (found : (data.command updates distinct).Finds tables) :
    { (data.command updates distinct).updated tables with
      params := tables.params.map fun s => assign
        (settersFor data.jobGuid (data.command updates distinct).parameters s) s } =
      data.edited updates tables ↔
    ∀ q ∈ tables.queue, q.jobGuid = data.jobGuid →
      data.storedMethodName q =
        (chosen data.updateMethodName data.newMethodName).getD q.methodName := by
  have params : (tables.params.map fun s => assign
      (settersFor data.jobGuid (data.command updates distinct).parameters s) s) =
        (data.edited updates tables).params :=
    List.map_congr_left fun s _ => assign_settersFor_command s
  -- the row that was found is the only one of the job
  have own : ∀ q ∈ tables.queue, (data.command updates distinct).updatable q = true ↔
      q.jobGuid = data.jobGuid := by
    intro q member
    obtain ⟨row, present, selected⟩ := found
    have guid : row.jobGuid = data.jobGuid := by
      simp only [JobUpdateCommand.updatable, Bool.and_eq_true, decide_eq_true_eq] at selected
      exact selected.1
    constructor
    · intro chosen
      simp only [JobUpdateCommand.updatable, Bool.and_eq_true, decide_eq_true_eq] at chosen
      exact chosen.1
    · intro same
      obtain rfl : row = q := List.inj_on_of_nodup_map guids present member (guid.trans same.symm)
      exact selected
  have queue : ((data.command updates distinct).updated tables).queue =
      tables.queue.map fun q => if q.jobGuid = data.jobGuid then
        { data.edit q with methodName := data.storedMethodName q } else q := by
    apply List.map_congr_left
    intro q member
    have metadata : (data.command updates distinct).metadata = data.updateSet := rfl
    by_cases same : q.jobGuid = data.jobGuid
    · simp only [(own q member).mpr same, same, ↓reduceIte, metadata, assign_updateSet]
    · have other := mt (own q member).mp same
      simp only [other, same, Bool.false_eq_true, ↓reduceIte]
  have whole : ({ (data.command updates distinct).updated tables with
      params := tables.params.map fun s => assign
        (settersFor data.jobGuid (data.command updates distinct).parameters s) s } : Tables) =
        data.edited updates tables ↔
      ((data.command updates distinct).updated tables).queue = (data.edited updates tables).queue := by
    rw [params]
    constructor
    · exact congrArg Tables.queue
    · intro same
      exact congrArg (fun queue : List SqlCommonDbOddJobMetaData =>
        ({ data.edited updates tables with queue } : Tables)) same
  rw [whole, queue, edited, List.map_inj_left]
  constructor
  · intro same q member guid
    have edited := same q member
    simp only [guid, ↓reduceIte] at edited
    exact congrArg SqlCommonDbOddJobMetaData.methodName edited
  · intro same q member
    split
    · rename_i guid
      rw [same q member guid]
      rfl
    · rfl

end UpdateForJob

/-- An update that is reported as done has edited the job exactly as the operator asked, for
every input and every store where either the update was impossible or the guard of the
method name did no harm. -/
theorem handle_edits_iff {input : JobUpdateViewModel} {tables : Tables}
    (guids : (tables.queue.map SqlCommonDbOddJobMetaData.jobGuid).Nodup)
    (ordinals : ∀ data ∈ input.updateData, ∀ updates ∈ data.paramUpdates,
      (updates.map UpdateForParam.paramOrdinal).Nodup) :
    (∀ after, handle input tables = (after, .ok true) → ∀ data ∈ input.updateData,
      ∀ updates ∈ data.paramUpdates, after = data.edited updates tables) ↔
    ∀ data ∈ input.updateData, ∀ updates ∈ data.paramUpdates,
      data.Refused updates tables ∨ data.NamesMethod tables := by
  cases given : input.updateData with
  | none => simp
  | some data =>
    cases listed : data.paramUpdates with
    | none => simp [listed]
    | some updates =>
      have distinct := ordinals data given updates listed
      have run : handle input tables =
          updateJobMetadataAndParameters (data.command updates distinct) tables := by
        simp only [handle, given, listed, distinct, ↓reduceDIte]
      simp only [Option.mem_some_iff, forall_eq', listed, run]
      by_cases null : data.updateMethodName = true ∧ data.newMethodName = none ∧
          isNullOrWhiteSpace data.newQueueName = false
      · obtain ⟨named, null, guarded⟩ := null
        constructor
        · exact fun _ => .inr fun _ => .inr (.inl null)
        · exact fun _ after done => absurd done (UpdateForJob.not_true_of_null named null guarded after)
      · have valid : (data.command updates distinct).WellFormed := by
          apply UpdateForJob.wellFormed_command
          intro named none
          by_contra guarded
          exact null ⟨named, none, by simpa using guarded⟩
        simp only [valid.run_eq_true_iff]
        by_cases refused : data.Refused updates tables
        · have impossible := (@UpdateForJob.refused_iff data updates tables distinct).mp refused
          constructor
          · exact fun _ => .inl refused
          · exact fun _ after ⟨found, present, _⟩ => absurd ⟨found, present⟩ impossible
        · have possible := not_not.mp
            (mt (@UpdateForJob.refused_iff data updates tables distinct).mpr refused)
          have same := UpdateForJob.updated_eq_iff guids possible.1
          simp only [UpdateForJob.storedMethodName_eq_iff] at same
          rw [or_iff_right refused]
          constructor
          · intro edited named
            have each := same.mp (edited _ ⟨possible.1, possible.2, rfl⟩)
            by_cases agree :
                isNullOrWhiteSpace data.newMethodName = isNullOrWhiteSpace data.newQueueName
            · exact .inl agree
            · by_cases null : data.newMethodName = none
              · exact .inr (.inl null)
              · refine .inr (.inr fun q member guid => ?_)
                exact ((each q member guid named).resolve_left agree).resolve_left null
          · rintro names after ⟨_, _, rfl⟩
            apply same.mpr
            intro q member guid named
            rcases names named with agree | null | stored
            · exact .inl agree
            · exact .inr (.inl null)
            · exact .inr (.inr (stored q member guid))

def renamed (newQueueName : Option String) : JobUpdateViewModel where
  updateData := some {
    jobGuid := 7
    updateMethodName := true
    newMethodName := some "Subtract"
    newQueueName }

theorem handle_edits_of_both_names : ∃ after,
    handle (renamed (some "default")) editedTables = (after, .ok true) ∧
    after.queue.map SqlCommonDbOddJobMetaData.methodName = ["Subtract"] := by
  refine ⟨_, rfl, ?_⟩
  have edits := (handle_edits_iff (by decide) (by
    rintro data ⟨⟩ updates ⟨⟩
    exact List.nodup_nil)).mpr (by
      rintro data ⟨⟩ updates ⟨⟩
      exact .inr fun _ => .inl (by decide)) _ (rfl :
        handle (renamed (some "default")) editedTables = (_, .ok true))
  rw [edits _ rfl _ rfl]
  rfl

/-- The operator is told that the method was renamed, and it was not. -/
theorem handle_skips_method_name :
    handle (renamed none) editedTables = (editedTables, .ok true) ∧
    ∀ data ∈ (renamed none).updateData, ∀ updates ∈ data.paramUpdates,
      editedTables ≠ data.edited updates editedTables := by
  refine ⟨rfl, ?_⟩
  rintro data ⟨⟩ updates ⟨⟩
  decide

end OddJob.Presentation
