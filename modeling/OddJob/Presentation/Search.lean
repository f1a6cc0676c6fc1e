import OddJob.Helpers.Combine
import OddJob.Lib.Pointwise
import OddJob.Presentation.Remoting
import OddJob.Sql.Rebuild
import OddJob.Sql.Store

/-! `OddJobRemotingHandler`: the search for jobs, the names that are offered for it, and the
edits that the page makes of what it found. -/

namespace OddJob.Presentation

open Linq Sql Helpers Transition

/-- The columns that are searched. -/
inductive SearchColumn where
  | queueName
  | methodName
  | status
  deriving DecidableEq, Repr

def SearchColumn.get : SearchColumn → SqlCommonDbOddJobMetaData → String
  | queueName, q => q.queueName
  | methodName, q => q.methodName
  | status, q => q.status.text

/-- What the search looks at: neither `UseQueue` nor the guid nor the dates. -/
structure JobSearchCriteria where
  useMethod : Bool := false
  useStatus : Bool := false
  queueName : Option String := none
  methodName : Option String := none
  status : Option String := none
  deriving DecidableEq, Repr

/-- `Expression<Func<SqlCommonDbOddJobMetaData, bool>>` -/
abbrev Criterion (Other Scope : Type) : Type :=
  Lambda SearchColumn SearchColumn Other Scope SqlCommonDbOddJobMetaData

section Criteria

variable {Other Scope : Type}

/-- `(a) => a.Column.ToLower().Contains(wanted.ToLower())`, each with a parameter of its own. -/
def columnContains (column : SearchColumn) (wanted : Option String) :
    Criterion Other Scope where
  parameter := column
  body := .node (.call .contains) [
    .node (.call .toLower) [.node (.member column) [.parameter column]],
    .node (.call .toLower) [.node (.constant (wanted.elim .null .text)) []]]
  closed := by simp [Expr.free, Expr.freeAll]

/-- The predicate of `Handle(JobSearchCriteria)`, null where no criterion is used. -/
def JobSearchCriteria.expr (criteria : JobSearchCriteria) : Option (Criterion Other Scope) :=
  let expr := none
  -- the queue name needs no flag
  let expr := if !isNullOrWhiteSpace criteria.queueName then
      some (combineBinaryExpression expr (columnContains .queueName criteria.queueName) false)
    else expr
  let expr := if !isNullOrWhiteSpace criteria.methodName && criteria.useMethod then
      some (combineBinaryExpression expr (columnContains .methodName criteria.methodName) false)
    else expr
  if !isNullOrWhiteSpace criteria.status && criteria.useStatus then
    some (combineBinaryExpression expr (columnContains .status criteria.status) false)
  else expr

/-- The rows that a `WHERE` with this predicate selects. -/
def selects (platform : Helpers.Platform SearchColumn Other Scope SqlCommonDbOddJobMetaData)
    (expr : Criterion Other Scope) (q : SqlCommonDbOddJobMetaData) : Bool :=
  match expr.call platform (.object q) with
  | .ok truth => truth
  | .error _ => false

end Criteria

structure JobRetryParameters where
  maxRetries : Int
  minRetryWait : Ticks
  retryCount : Int
  lastAttempt : Option Ticks
  deriving DecidableEq, Repr

structure JobParameterDto where
  ordinal : Int
  type : Option String
  name : Option String
  value : Option String
  deriving DecidableEq, Repr

structure JobMetadataResult where
  jobId : Guid
  jobArgs : List JobParameterDto
  typeExecutedOn : String
  methodName : String
  status : String
  methodGenericTypes : List (Option String)
  executionTime : String
  retryParameters : JobRetryParameters
  queue : String
  deriving DecidableEq, Repr

def JobParameterDto.of (r : OddJobSerializedParameter) : JobParameterDto where
  ordinal := r.ordinal
  name := r.name
  type := r.typeName
  value := r.value

/-- The projection of the search; `dateText` is the `ToString` of a date. -/
def JobMetadataResult.shown (dateText : Ticks → String) (q : SerializableOddJob)
    (retryParameters : RetryParameters) : JobMetadataResult where
  executionTime := q.executionTime.elim "" dateText
  jobArgs := q.jobArgs.map JobParameterDto.of
  jobId := q.jobId
  methodGenericTypes := q.methodGenericTypes
  methodName := q.methodName
  queue := q.queueName
  retryParameters := {
    lastAttempt := retryParameters.lastAttempt
    retryCount := retryParameters.retryCount
    maxRetries := retryParameters.maxRetries
    minRetryWait := retryParameters.minRetryWait }
  status := q.status.text
  typeExecutedOn := q.typeExecutedOn

def JobMetadataResult.of (dateText : Ticks → String) (q : SerializableOddJob) :
    Except ClrException JobMetadataResult :=
  match q.retryParameters with
  | none => .error .nullReference
  | some retryParameters => .ok (.shown dateText q retryParameters)

section Handlers

variable {Other Scope : Type}
  (platform : Helpers.Platform SearchColumn Other Scope SqlCommonDbOddJobMetaData)

/-- `Handle(JobSearchCriteria)`; `query` gives the rows that the database returns for a
`WHERE`. -/
def handleSearch (dateText : Ticks → String)
    (query : (SqlCommonDbOddJobMetaData → Bool) → List SqlQueueRowSet)
    (criteria : JobSearchCriteria) : Except ClrException (List JobMetadataResult) :=
  match (criteria.expr : Option (Criterion Other Scope)) with
  | none => .ok []
  | some expr =>
    (getSerializableJobsByCriteria (query (selects platform expr))).mapM
      (JobMetadataResult.of dateText)

/-- `Handle(QueueNameListRequest)` -/
def handleQueueNames (scan : List SqlCommonDbOddJobMetaData) : List (Option String) :=
  [none] ++ getJobCriteriaValues (fun q => some q.queueName) scan

/-- `Handle(GetMethodsForQueueNameRequest)` -/
def handleMethodNames (queueName : Option String) (scan : List SqlCommonDbOddJobMetaData) :
    List (Option String) :=
  let results := [none]
  if !isNullOrWhiteSpace queueName then
    let expr := combineBinaryExpression none (columnContains .queueName queueName) false
    results ++ getJobCriteriaByCriteria (selects platform expr) (fun q => some q.methodName) scan
  else results

end Handlers

/-- The update that `CreateSearchResults` prepares for a result. -/
def JobMetadataResult.updateData (q : JobMetadataResult) : UpdateForJob where
  jobGuid := q.jobId
  oldStatus := some q.status
  paramUpdates := some (q.jobArgs.map fun r => { paramOrdinal := r.ordinal })

/-- What the inputs of the page let an operator make of a prepared update. -/
structure EditOf (q : JobMetadataResult) (data : UpdateForJob) (updates : List UpdateForParam) :
    Prop where
  jobGuid : data.jobGuid = q.updateData.jobGuid
  oldStatus : data.oldStatus = q.updateData.oldStatus
  listed : data.paramUpdates = some updates
  ordinals : some (updates.map UpdateForParam.paramOrdinal) =
    q.updateData.paramUpdates.map (List.map UpdateForParam.paramOrdinal)

section Selected

variable {Other Scope : Type}
  {platform : Helpers.Platform SearchColumn Other Scope SqlCommonDbOddJobMetaData}

/-- A member of a row is its column. -/
def ReadsColumns (platform : Helpers.Platform SearchColumn Other Scope SqlCommonDbOddJobMetaData) :
    Prop :=
  ∀ column q, platform.member column [.ok (.object q)] = .ok (.text (column.get q))

namespace JobSearchCriteria

/-- What a column is searched for. -/
def wanted (criteria : JobSearchCriteria) : SearchColumn → Option String
  | .queueName => chosen true criteria.queueName
  | .methodName => chosen criteria.useMethod criteria.methodName
  | .status => chosen criteria.useStatus criteria.status

/-- One of the columns has in it what it is searched for, in upper or lower case. -/
def Matches (criteria : JobSearchCriteria) (toLower : String → String)
    (q : SqlCommonDbOddJobMetaData) : Prop :=
  ∃ column, ∃ text ∈ criteria.wanted column,
    textContains (toLower (column.get q)) (toLower text) = true

end JobSearchCriteria

theorem call_columnContains (reads : ReadsColumns platform) (column : SearchColumn) (text : String)
    (q : SqlCommonDbOddJobMetaData) :
    (columnContains column (some text)).call platform (.object q) =
      .ok (textContains (platform.toLower (column.get q)) (platform.toLower text)) := by
  simp [Lambda.call, columnContains, Expr.eval, Expr.evalAll, Platform.meaning, Platform.node,
    reads column q, mapText, contains]

private theorem bound_columnContains (column : SearchColumn) (wanted : Option String) :
    (columnContains column wanted : Criterion Other Scope).bound = [column] := by
  simp [Lambda.bound, columnContains, Expr.bound, Expr.boundAll]

private theorem shortCircuit_false (left right : Bool) :
    shortCircuit false (.ok left) (.ok right) = .ok (left || right) := by
  cases left <;> rfl

/-- A predicate that has been put together from the criteria of some columns. -/
private structure Decides
    (platform : Helpers.Platform SearchColumn Other Scope SqlCommonDbOddJobMetaData)
    (criteria : JobSearchCriteria) (columns : List SearchColumn)
    (expr : Option (Criterion Other Scope)) : Prop where
  unused : expr = none → ∀ column ∈ columns, criteria.wanted column = none
  bound : ∀ lambda ∈ expr, ∀ name ∈ lambda.bound, name ∈ columns
  truth : ∀ lambda ∈ expr, ∀ q, ∃ truth, lambda.call platform (.object q) = .ok truth ∧
    (truth = true ↔ ∃ column ∈ columns, ∃ text ∈ criteria.wanted column,
      textContains (platform.toLower (column.get q)) (platform.toLower text) = true)

namespace Decides

variable {criteria : JobSearchCriteria} {columns : List SearchColumn} {column : SearchColumn}
  {expr : Option (Criterion Other Scope)}

private theorem skip (valid : Decides platform criteria columns expr)
    (absent : criteria.wanted column = none) :
    Decides platform criteria (column :: columns) expr where
  unused none other member := by
    rcases List.mem_cons.mp member with rfl | older
    · exact absent
    · exact valid.unused none other older
  bound lambda present name used := List.mem_cons_of_mem _ (valid.bound lambda present name used)
  truth lambda present q := by
    obtain ⟨truth, called, same⟩ := valid.truth lambda present q
    refine ⟨truth, called, same.trans ?_⟩
    simp [absent]

private theorem add (valid : Decides platform criteria columns expr)
    (reads : ReadsColumns platform) (fresh : column ∉ columns) {text : String}
    (present : criteria.wanted column = some text) :
    Decides platform criteria (column :: columns)
      (some (combineBinaryExpression expr (columnContains column (some text)) false)) where
  unused none := nomatch none
  bound := by
    rintro lambda ⟨⟩ name used
    cases expr with
    | none =>
      rw [combineBinaryExpression, bound_columnContains] at used
      exact List.mem_singleton.mp used ▸ List.mem_cons_self
    | some expr =>
      rcases Lambda.mem_bound_combine used with old | new
      · exact List.mem_cons_of_mem _ (valid.bound expr rfl name old)
      · rw [bound_columnContains] at new
        exact List.mem_singleton.mp new ▸ List.mem_cons_self
  truth := by
    rintro lambda ⟨⟩ q
    have own := call_columnContains reads column text q
    cases expr with
    | none =>
      refine ⟨_, own, ?_⟩
      have others := valid.unused rfl
      simp +contextual [present, others]
    | some expr =>
      obtain ⟨truth, called, same⟩ := valid.truth expr rfl q
      have apart : expr.bound.Disjoint
          (columnContains column (some text) : Criterion Other Scope).bound := by
        intro name old new
        rw [bound_columnContains, List.mem_singleton] at new
        exact fresh (new ▸ valid.bound expr rfl name old)
      refine ⟨_, (Lambda.call_combine platform apart _).trans
        (by rw [called, own, shortCircuit_false]), ?_⟩
      rw [Bool.or_eq_true, same, or_comm]
      simp [present]

private theorem next (valid : Decides platform criteria columns expr)
    (reads : ReadsColumns platform) (fresh : column ∉ columns) {use : Bool} {value : Option String}
    (same : criteria.wanted column = chosen use value) :
    Decides platform criteria (column :: columns)
      (if !isNullOrWhiteSpace value && use then
        some (combineBinaryExpression expr (columnContains column value) false) else expr) := by
  rw [chosen, Bool.and_comm] at same
  split at same
  · rename_i guard
    rw [if_pos guard]
    cases value with
    | none => cases guard
    | some text => exact valid.add reads fresh same
  · rename_i guard
    rw [if_neg guard]
    exact valid.skip same

private theorem whole (reads : ReadsColumns platform) (criteria : JobSearchCriteria) :
    Decides platform criteria [.status, .methodName, .queueName] criteria.expr := by
  have empty : Decides platform criteria [] none := ⟨by simp, by simp, by simp⟩
  have queueName := @next _ _ _ _ _ _ _ empty reads List.not_mem_nil true criteria.queueName
    (rfl : criteria.wanted .queueName = _)
  rw [Bool.and_true] at queueName
  have methodName := @next _ _ _ _ _ _ _ queueName reads (by decide) criteria.useMethod
    criteria.methodName (rfl : criteria.wanted .methodName = _)
  exact methodName.next reads (by decide) rfl

end Decides

/-- The predicate is null where nothing is searched for, and else selects the rows that match
one criterion. -/
theorem selects_expr (reads : ReadsColumns platform) (criteria : JobSearchCriteria) :
    ((criteria.expr : Option (Criterion Other Scope)) = none →
      ∀ q, ¬ criteria.Matches platform.toLower q) ∧
    ∀ expr : Criterion Other Scope, criteria.expr = some expr →
      ∀ q, selects platform expr q = true ↔ criteria.Matches platform.toLower q := by
  have valid := Decides.whole reads criteria
  have all (column : SearchColumn) :
      column ∈ [SearchColumn.status, .methodName, .queueName] := by cases column <;> decide
  constructor
  · rintro none q ⟨column, text, present, _⟩
    rw [valid.unused none column (all column)] at present
    cases present
  · intro expr same q
    obtain ⟨truth, called, truthful⟩ := valid.truth expr same q
    rw [selects, called]
    exact truthful.trans (by simp [all, JobSearchCriteria.Matches])

end Selected

section Found

variable {Other Scope : Type}
  {platform : Helpers.Platform SearchColumn Other Scope SqlCommonDbOddJobMetaData}
  {tables : Tables} {dateText : Ticks → String}
  {query : (SqlCommonDbOddJobMetaData → Bool) → List SqlQueueRowSet}

/-- A result has the columns of a row, and its typed parameters and generic types in order. -/
structure Shows (tables : Tables) (dateText : Ticks → String) (row : SqlCommonDbOddJobMetaData)
    (result : JobMetadataResult) : Prop where
  jobId : result.jobId = row.jobGuid
  typeExecutedOn : result.typeExecutedOn = row.typeExecutedOn
  methodName : result.methodName = row.methodName
  queue : result.queue = row.queueName
  status : result.status = row.status.text
  executionTime : result.executionTime = row.doNotExecuteBefore.elim "" dateText
  retryParameters : result.retryParameters = {
    maxRetries := row.maxRetries
    minRetryWait := row.minRetryWait * ticksPerSecond
    retryCount := row.retryCount
    lastAttempt := row.lastAttempt }
  increasing : result.jobArgs.Pairwise fun first second => first.ordinal < second.ordinal
  genuine : ∀ arg ∈ result.jobArgs, ∃ param ∈ tables.params, param.jobGuid = row.jobGuid ∧
    param.serializedType.isSome = true ∧ arg = .of (serializedParameter param)
  complete : ∀ param ∈ tables.params, param.jobGuid = row.jobGuid →
    param.serializedType.isSome = true → ∃ arg ∈ result.jobArgs, arg.ordinal = param.paramOrdinal

private theorem shows_of_group {row : SqlCommonDbOddJobMetaData} {first : SqlQueueRowSet}
    {group : List SqlQueueRowSet} (whole : GroupOf tables row group) (head : first.metaData = row) :
    Shows tables dateText row (.shown dateText (serializableOfGroup row.jobGuid first group)
      (retryParametersOf first.metaData)) := by
  subst head
  refine ⟨rfl, rfl, rfl, rfl, rfl, rfl, rfl, ?_, ?_, ?_⟩
  · exact List.pairwise_map.mpr (List.pairwise_map.mpr (orderedParams_increasing group))
  · intro arg member
    obtain ⟨wire, listed, rfl⟩ := List.mem_map.mp member
    obtain ⟨param, kept, rfl⟩ := List.mem_map.mp listed
    obtain ⟨⟨present, own⟩, typed⟩ := whole.mem_orderedParams kept
    exact ⟨param, present, own, typed, rfl⟩
  · intro param present own typed
    obtain ⟨kept, found, same⟩ := whole.exists_orderedParams present own typed
    exact ⟨_, List.mem_map_of_mem (List.mem_map_of_mem found), same⟩

private theorem handleSearch_eq (reads : ReadsColumns platform)
    (guids : (tables.queue.map SqlCommonDbOddJobMetaData.jobGuid).Nodup)
    (returned : ∀ selected, Returns tables selected (query selected))
    (criteria : JobSearchCriteria) :
    ∃ selected rows, (∀ q, selected q = true ↔ criteria.Matches platform.toLower q) ∧
      Returns tables selected rows ∧
      handleSearch platform dateText query criteria =
        .ok ((executeSerializableJoinQuery rows).map fun q =>
          .shown dateText q (q.retryParameters.getD {})) := by
  obtain ⟨unused, selects⟩ := selects_expr reads criteria
  unfold handleSearch
  cases used : (criteria.expr : Option (Criterion Other Scope)) with
  | none =>
    refine ⟨fun _ => false, [], fun q => ?_, ?_, rfl⟩
    · simpa using unused used q
    · simp [Returns, joinQuery, leftJoin]
  | some expr =>
    refine ⟨_, _, selects expr used, returned _, mapM_eq_ok_iff.mpr ?_⟩
    rw [List.map_map]
    apply List.map_congr_left
    intro job member
    obtain ⟨row, _, _, first, group, _, _, rfl⟩ :=
      exists_group_of_serializable guids (returned _) member
    rfl

theorem handleSearch_finds (reads : ReadsColumns platform)
    (guids : (tables.queue.map SqlCommonDbOddJobMetaData.jobGuid).Nodup)
    (returned : ∀ selected, Returns tables selected (query selected))
    (criteria : JobSearchCriteria) :
    ∃ results, handleSearch platform dateText query criteria = .ok results ∧
      (results.map JobMetadataResult.jobId).Nodup ∧
      (∀ row ∈ tables.queue, criteria.Matches platform.toLower row →
        ∃ result ∈ results, result.jobId = row.jobGuid) ∧
      ∀ result ∈ results, ∃ row ∈ tables.queue, criteria.Matches platform.toLower row ∧
        Shows tables dateText row result := by
  obtain ⟨selected, rows, same, returns, done⟩ :=
    @handleSearch_eq _ _ _ _ dateText _ reads guids returned criteria
  have ids := executeSerializableJoinQuery_ids guids returns
  refine ⟨_, done, ?_, ?_, ?_⟩
  · rw [List.map_map]
    exact ids.nodup_iff.mpr (guids.sublist (List.filter_sublist.map _))
  · intro row present matched
    have listed : row.jobGuid ∈
        (executeSerializableJoinQuery rows).map SerializableOddJob.jobId :=
      ids.mem_iff.mpr (List.mem_map_of_mem (List.mem_filter.mpr ⟨present, (same row).mpr matched⟩))
    obtain ⟨job, member, own⟩ := List.mem_map.mp listed
    exact ⟨_, List.mem_map_of_mem member, own⟩
  · intro result member
    obtain ⟨job, listed, rfl⟩ := List.mem_map.mp member
    obtain ⟨row, present, chosen, first, group, whole, head, rfl⟩ :=
      exists_group_of_serializable guids returns listed
    exact ⟨row, present, (same row).mp chosen, shows_of_group whole head⟩

end Found

section Management

variable {Key : Type} [LinearOrder Key] {store after : Store}

/-- A statement of a client, or a whole edit by some operator. -/
inductive ManagedAction (Key : Type) where
  | client (action : Store.Action Key)
  | edit (input : JobUpdateViewModel)

def manage (store : Store) : ManagedAction Key → Option Store
  | .client action => store.step action
  | .edit input => some { store with tables := (handle input store.tables).1 }

def guidsOf (tables : Tables) : List Guid := tables.queue.map SqlCommonDbOddJobMetaData.jobGuid

/-- The keys of the parameters. -/
def paramKeysOf (tables : Tables) : List (Guid × Int) :=
  tables.params.map fun s => (s.jobGuid, s.paramOrdinal)

def idsOf (store : Store) : List Guid :=
  store.insertions.map fun insertion => insertion.jobData.jobId

theorem guids_command {data : UpdateForJob} {updates : List UpdateForParam}
    {distinct : (updates.map UpdateForParam.paramOrdinal).Nodup}
    {queue after : List SqlCommonDbOddJobMetaData}
    (updated : updateCommand (data.command updates distinct) data.updateSet queue = some after) :
    after.map SqlCommonDbOddJobMetaData.jobGuid = queue.map SqlCommonDbOddJobMetaData.jobGuid := by
  have keeps : ∀ setter ∈ data.updateSet, setter.1 ≠ .jobGuid := by
    intro setter member
    simp only [UpdateForJob.updateSet, List.mem_append] at member
    rcases member with ((listed | listed) | listed) | listed
    all_goals
      split at listed
      · obtain rfl := List.mem_singleton.mp listed
        simp
      · cases listed
  cases same : data.updateSet with
  | nil =>
    rw [same] at updated
    exact congrArg _ (Option.some.inj updated).symm
  | cons first rest =>
    rw [same] at keeps updated
    exact Database.get_update keeps updated

private theorem keepsKey_settersFor {jobGuid : Guid}
    {parameters : List (Int × Option (List (Assignment ParamColumn)))}
    (given : ∀ entry ∈ parameters, ∃ setters, entry.2 = some setters ∧ KeepsKey setters)
    (s : SqlCommonOddJobParamMetaData) : KeepsKey (settersFor jobGuid parameters s) := by
  have empty : KeepsKey [] := fun setter member => absurd member List.not_mem_nil
  rw [settersFor]
  split
  · cases found : parameters.find? fun entry => decide (entry.1 = s.paramOrdinal) with
    | none => exact empty
    | some entry =>
      obtain ⟨setters, same, keeps⟩ := given entry (List.mem_of_find?_eq_some found)
      rwa [Option.bind_some, same]
  · exact empty

/-- An edit keeps the jobs and the keys of their parameters, whatever comes of it. -/
theorem handle_keeps (input : JobUpdateViewModel) (tables : Tables) :
    guidsOf (handle input tables).1 = guidsOf tables ∧
      paramKeysOf (handle input tables).1 = paramKeysOf tables := by
  unfold handle
  split
  · exact ⟨rfl, rfl⟩
  rename_i data _
  split
  · exact ⟨rfl, rfl⟩
  rename_i updates _
  split
  · rename_i distinct
    have setters : (data.command updates distinct).setJobMetadata = some data.updateSet := rfl
    simp only [updateJobMetadataAndParameters, setters]
    cases updated : updateCommand (data.command updates distinct) data.updateSet tables.queue with
    | none => exact ⟨rfl, rfl⟩
    | some queue =>
      have guids := guids_command updated
      have parameters : (data.command updates distinct).setJobParameters.isSome = true := rfl
      obtain ⟨parameters, given⟩ := Option.isSome_iff_exists.mp parameters
      have listed : (data.command updates distinct).parameters = parameters.entries := by
        rw [JobUpdateCommand.parameters, given]
        rfl
      simp only [given]
      cases tables.queue.any (data.command updates distinct).updatable with
      | false => exact ⟨guids, rfl⟩
      | true =>
        obtain ⟨done, left, split, result, -, -⟩ := updateParameters_eq
          (data.command updates distinct).jobGuid parameters.distinct
          (listed ▸ UpdateForJob.keepsKey_command) { tables with queue }
        simp only [result]
        refine ⟨guids, (List.map_map).trans (List.map_congr_left fun s _ => ?_)⟩
        have keeps : KeepsKey
            (settersFor (data.command updates distinct).jobGuid done s) := by
          apply keepsKey_settersFor
          intro entry member
          apply @UpdateForJob.keepsKey_command data updates distinct entry
          rw [listed, split]
          exact List.mem_append_left _ member
        exact Prod.ext (keeps.jobGuid_assign s) (keeps.paramOrdinal_assign s)
  · exact ⟨rfl, rfl⟩

/-- What a statement of a client does to the jobs, and to the inserts that they are from. -/
theorem keeps_or_inserts {action : Store.Action Key}
    (taken : store.step action = some after) :
    (guidsOf after.tables = guidsOf store.tables ∧ idsOf after = idsOf store ∧
      store.tables.params ⊆ after.tables.params) ∨
    ∃ jobId ∉ idsOf store, guidsOf after.tables = guidsOf store.tables ++ [jobId] ∧
      idsOf after = idsOf store ++ [jobId] ∧ after.tables.params = store.tables.params := by
  cases action with
  | insert jobData now =>
    simp only [Store.step] at taken
    split at taken
    · cases taken
    · rename_i fresh
      cases taken
      refine .inr ⟨jobData.jobId, ?_, ?_, ?_, rfl⟩
      · simpa [Store.knows, idsOf] using fresh
      · exact List.map_append
      · exact List.map_append
  | proceed jobId =>
    obtain ⟨insertion, _, rfl⟩ := Option.map_eq_some_iff.mp taken
    refine .inl ?_
    cases point : insertion.point with
    | inserted =>
      simp only [Store.proceed, point, guidsOf, Tables.copyParams_queue, Tables.copyParams_params]
      exact ⟨trivial, reach_ids _ _ _, List.subset_append_left _ _⟩
    | paramsCopied =>
      simp only [Store.proceed, point, guidsOf, Tables.copyGenerics_queue,
        Tables.copyGenerics_params]
      exact ⟨trivial, reach_ids _ _ _, List.Subset.refl _⟩
    | genericsCopied =>
      simp only [Store.proceed, point]
      refine ⟨?_, reach_ids _ _ _, List.Subset.refl _⟩
      apply map_updateWhere SqlCommonDbOddJobMetaData.jobGuid
      exact fun _ => rfl
    | published => exact ⟨by rw [Store.proceed, point], by rw [Store.proceed, point],
        by rw [Store.proceed, point]; exact List.Subset.refl _⟩
  | claim call scan =>
    simp only [Store.step] at taken
    split at taken
    · cases taken
      refine .inl ⟨?_, rfl, List.Subset.refl _⟩
      apply map_updateWhere SqlCommonDbOddJobMetaData.jobGuid
      exact fun _ => rfl
    · cases taken
  | read lockGuid rows =>
    simp only [Store.step] at taken
    split at taken
    · cases taken
      exact .inl ⟨rfl, rfl, List.Subset.refl _⟩
    · cases taken
  | mark mark jobId now =>
    simp only [Store.step] at taken
    split at taken
    · cases taken
      rw [Store.mark, mark.apply_eq]
      exact .inl ⟨map_updateWhere _ (fun q => mark.set_jobGuid now q) _, rfl, List.Subset.refl _⟩
    · cases taken

/-- The jobs are those of the inserts, each there once. -/
structure Identified (store : Store) : Prop where
  guids : guidsOf store.tables = idsOf store
  distinct : (idsOf store).Nodup

theorem Identified.nodup (valid : Identified store) :
    (store.tables.queue.map SqlCommonDbOddJobMetaData.jobGuid).Nodup := by
  have guids : store.tables.queue.map SqlCommonDbOddJobMetaData.jobGuid = idsOf store := valid.guids
  exact guids ▸ valid.distinct

theorem Identified.client (valid : Identified store) {action : Store.Action Key}
    (taken : store.step action = some after) : Identified after := by
  rcases keeps_or_inserts taken with ⟨guids, ids, _⟩ | ⟨jobId, fresh, guids, ids, _⟩
  · exact ⟨guids.trans (valid.guids.trans ids.symm), ids ▸ valid.distinct⟩
  · refine ⟨by rw [guids, ids, valid.guids], ?_⟩
    rw [ids]
    exact List.Nodup.append valid.distinct (List.nodup_singleton _) (by simpa using fresh)

private theorem Identified.manage (valid : Identified store) {action : ManagedAction Key}
    (taken : manage store action = some after) : Identified after := by
  cases action with
  | client action => exact valid.client taken
  | edit input =>
    cases taken
    exact ⟨(handle_keeps input store.tables).1.trans valid.guids, valid.distinct⟩

private theorem identified_of_reaches
    (reached : Reaches (@manage Key _) anyAction {} store) : Identified store :=
  @Reaches.invariant _ _ _ _ _ _ Identified reached ⟨rfl, List.nodup_nil⟩
    fun _ _ _ valid _ taken => valid.manage taken

theorem kept_of_reaches {later : Store} (run : Reaches (@manage Key _) anyAction store later) :
    guidsOf store.tables ⊆ guidsOf later.tables ∧
      paramKeysOf store.tables ⊆ paramKeysOf later.tables := by
  induction run with
  | refl => exact ⟨List.Subset.refl _, List.Subset.refl _⟩
  | @next before action after _ _ taken ih =>
    have step : guidsOf before.tables ⊆ guidsOf after.tables ∧
        paramKeysOf before.tables ⊆ paramKeysOf after.tables := by
      cases action with
      | client action =>
        rcases keeps_or_inserts taken with ⟨guids, _, params⟩ | ⟨jobId, _, guids, _, params⟩
        · exact ⟨guids ▸ List.Subset.refl _, List.map_subset _ params⟩
        · refine ⟨guids ▸ List.subset_append_left _ _, ?_⟩
          rw [paramKeysOf, paramKeysOf, params]
          exact List.Subset.refl _
      | edit input =>
        cases taken
        obtain ⟨guids, params⟩ := handle_keeps input before.tables
        exact ⟨guids ▸ List.Subset.refl _, params ▸ List.Subset.refl _⟩
    exact ⟨List.Subset.trans ih.1 step.1, List.Subset.trans ih.2 step.2⟩

end Management

section Operator

variable {Other Scope Key : Type} [LinearOrder Key] {store later : Store}
  {platform : Helpers.Platform SearchColumn Other Scope SqlCommonDbOddJobMetaData}
  {dateText : Ticks → String} {query : (SqlCommonDbOddJobMetaData → Bool) → List SqlQueueRowSet}
  {criteria : JobSearchCriteria} {results : List JobMetadataResult} {result : JobMetadataResult}
  {data : UpdateForJob} {updates : List UpdateForParam}

private theorem guids_nodup (reached : Reaches (@manage Key _) anyAction {} store) :
    (store.tables.queue.map SqlCommonDbOddJobMetaData.jobGuid).Nodup :=
  (identified_of_reaches reached).nodup

/-- In every store that clients and operators can reach, a search returns exactly the jobs
that match one of the criteria it uses, each of them once, with their columns and parameters. -/
theorem search_finds_matching (reads : ReadsColumns platform)
    (reached : Reaches (@manage Key _) anyAction {} store)
    (returned : ∀ selected, Returns store.tables selected (query selected))
    (criteria : JobSearchCriteria) :
    ∃ results, handleSearch platform dateText query criteria = .ok results ∧
      (results.map JobMetadataResult.jobId).Nodup ∧
      (∀ row ∈ store.tables.queue, criteria.Matches platform.toLower row →
        ∃ result ∈ results, result.jobId = row.jobGuid) ∧
      ∀ result ∈ results, ∃ row ∈ store.tables.queue, criteria.Matches platform.toLower row ∧
        Shows store.tables dateText row result :=
  handleSearch_finds reads (guids_nodup reached) returned criteria

/-- The job is in the status that the operator saw, if that was asked for. -/
def AsSeen (data : UpdateForJob) (result : JobMetadataResult) (row : SqlCommonDbOddJobMetaData) :
    Prop :=
  data.requireOldStatus = true → isNullOrWhiteSpace (some result.status) = false →
    row.status.text = result.status

theorem EditOf.distinct (edit : EditOf result data updates)
    (increasing : result.jobArgs.Pairwise fun first second => first.ordinal < second.ordinal) :
    (updates.map UpdateForParam.paramOrdinal).Nodup := by
  have same : updates.map UpdateForParam.paramOrdinal =
      result.jobArgs.map JobParameterDto.ordinal := by
    simpa [JobMetadataResult.updateData, Function.comp_def] using edit.ordinals
  rw [same]
  exact (List.pairwise_map.mpr increasing).imp ne_of_lt

/-- Every parameter that is edited has been stored when the edit arrives. -/
theorem EditOf.stored (edit : EditOf result data updates)
    {row : SqlCommonDbOddJobMetaData} (shown : Shows store.tables dateText row result)
    (kept : paramKeysOf store.tables ⊆ paramKeysOf later.tables) {update : UpdateForParam}
    (member : update ∈ updates) :
    ∃ s ∈ later.tables.params, s.jobGuid = data.jobGuid ∧ s.paramOrdinal = update.paramOrdinal := by
  have same : updates.map UpdateForParam.paramOrdinal =
      result.jobArgs.map JobParameterDto.ordinal := by
    simpa [JobMetadataResult.updateData, Function.comp_def] using edit.ordinals
  obtain ⟨arg, listed, ordinal⟩ :=
    List.mem_map.mp (same ▸ List.mem_map_of_mem member :
      update.paramOrdinal ∈ result.jobArgs.map JobParameterDto.ordinal)
  obtain ⟨param, present, own, _, rfl⟩ := shown.genuine arg listed
  obtain ⟨s, found, key⟩ := List.mem_map.mp (kept (List.mem_map_of_mem present))
  obtain ⟨guid, number⟩ := Prod.ext_iff.mp key
  refine ⟨s, found, ?_, number.trans ordinal⟩
  exact guid.trans (own.trans (shown.jobId.symm.trans edit.jobGuid.symm))

/-- An operator's edit of a job that a search has found, sent after any statements of clients
and any other edits: it is done in full where the job is in the status that the operator saw,
and else nothing has changed. -/
theorem edit_of_found (reads : ReadsColumns platform)
    (reached : Reaches (@manage Key _) anyAction {} store)
    (returned : ∀ selected, Returns store.tables selected (query selected))
    (found : handleSearch platform dateText query criteria = .ok results)
    (member : result ∈ results) (run : Reaches (@manage Key _) anyAction store later)
    (edit : EditOf result data updates)
    (named : data.updateMethodName = true →
      isNullOrWhiteSpace data.newMethodName = isNullOrWhiteSpace data.newQueueName) :
    ∃ row ∈ later.tables.queue, row.jobGuid = result.jobId ∧
      (AsSeen data result row →
        handle { updateData := some data } later.tables =
          (data.edited updates later.tables, .ok true)) ∧
      (¬ AsSeen data result row →
        handle { updateData := some data } later.tables = (later.tables, .ok false)) := by
  obtain ⟨results, same, -, -, genuine⟩ :=
    @handleSearch_finds _ _ _ _ dateText _ reads (guids_nodup reached) returned criteria
  obtain rfl := Except.ok.inj (found.symm.trans same)
  obtain ⟨old, stored, -, shown⟩ := genuine result member
  obtain ⟨guids, params⟩ := kept_of_reaches run
  obtain ⟨row, present, own⟩ := List.mem_map.mp (guids (List.mem_map_of_mem stored))
  have guid : data.jobGuid = row.jobGuid :=
    edit.jobGuid.trans (shown.jobId.trans own.symm)
  have unique := guids_nodup (reached.trans run)
  have distinct := edit.distinct shown.increasing
  have sent : handle { updateData := some data } later.tables =
      updateJobMetadataAndParameters (data.command updates distinct) later.tables := by
    simp only [handle, edit.listed, distinct, ↓reduceDIte]
  have valid : (data.command updates distinct).WellFormed := by
    apply UpdateForJob.wellFormed_command
    intro flagged null
    rw [← named flagged, null]
    rfl
  have finds : (data.command updates distinct).Finds later.tables ↔ AsSeen data result row := by
    rw [UpdateForJob.finds_command_iff, edit.oldStatus]
    simp only [JobMetadataResult.updateData, Option.some.injEq]
    constructor
    · rintro ⟨q, listed, same, seen⟩
      obtain rfl : q = row :=
        List.inj_on_of_nodup_map unique listed present (same.trans guid)
      exact seen
    · exact fun seen => ⟨row, present, guid.symm, seen⟩
  refine ⟨row, present, own.trans shown.jobId.symm, fun seen => ?_, fun unseen => ?_⟩
  · have possible := finds.mpr seen
    rw [sent, valid.run_eq_true_iff]
    refine ⟨possible, ?_, ?_⟩
    · intro entry listed
      obtain ⟨update, chosen, rfl⟩ := List.mem_map.mp
        (listed : entry ∈ updates.map buildParamUpdateSet)
      exact UpdateForJob.findsParam_command_iff.mpr fun _ => edit.stored shown params chosen
    · refine ((UpdateForJob.updated_eq_iff unique possible).mpr fun q _ _ => ?_).symm
      exact (UpdateForJob.storedMethodName_eq_iff data q).mpr fun flagged => .inl (named flagged)
  · have missing : later.tables.queue.any (data.command updates distinct).updatable = false := by
      rw [← Bool.not_eq_true, ← JobUpdateCommand.finds_iff]
      exact fun possible => unseen (finds.mp possible)
    rw [sent, valid.run_eq, if_neg (by simp [missing]), JobUpdateCommand.updated,
      updateWhere_of_none missing]

private theorem matches_queueName_iff {toLower : String → String} {name : String}
    (given : isNullOrWhiteSpace (some name) = false) (q : SqlCommonDbOddJobMetaData) :
    ({ queueName := some name } : JobSearchCriteria).Matches toLower q ↔
      textContains (toLower q.queueName) (toLower name) = true := by
  have wanted : ({ queueName := some name } : JobSearchCriteria).wanted .queueName = some name := by
    simp [JobSearchCriteria.wanted, chosen, given]
  constructor
  · rintro ⟨column, text, asked, found⟩
    cases column with
    | queueName =>
      obtain rfl : name = text := Option.some.inj (wanted.symm.trans asked)
      exact found
    | methodName => cases asked
    | status => cases asked
  · exact fun found => ⟨.queueName, name, wanted, found⟩

private theorem handleMethodNames_eq (reads : ReadsColumns platform) {name : String}
    (given : isNullOrWhiteSpace (some name) = false) (scan : List SqlCommonDbOddJobMetaData) :
    ∃ selected, (∀ q, selected q = true ↔
        ({ queueName := some name } : JobSearchCriteria).Matches platform.toLower q) ∧
      handleMethodNames platform (some name) scan =
        none :: (scan.filter selected).map fun q => some q.methodName := by
  refine ⟨selects platform (combineBinaryExpression none
    (columnContains .queueName (some name)) false), fun q => ?_, ?_⟩
  · rw [matches_queueName_iff given, combineBinaryExpression, selects, call_columnContains reads]
    rfl
  · simp [handleMethodNames, given, getJobCriteriaByCriteria]

/-- A queue name that is offered finds jobs of that queue, and the method names that are then
offered are those of the jobs that it finds, one for each of them. -/
theorem offered_names_find (reads : ReadsColumns platform)
    (reached : Reaches (@manage Key _) anyAction {} store)
    (returned : ∀ selected, Returns store.tables selected (query selected))
    {scan : List SqlCommonDbOddJobMetaData} (order : scan.Perm store.tables.queue) {name : String}
    (offered : some name ∈ handleQueueNames scan)
    (given : isNullOrWhiteSpace (some name) = false) :
    ∃ results, handleSearch platform dateText query { queueName := some name } = .ok results ∧
      (∃ result ∈ results, result.queue = name) ∧
      (handleMethodNames platform (some name) scan).Perm
        (none :: results.map fun result => some result.methodName) := by
  have guids := guids_nodup reached
  obtain ⟨results, done, once, all, genuine⟩ := @handleSearch_finds _ _ _ _ dateText _
    reads guids returned { queueName := some name }
  obtain ⟨selected, same, names⟩ := handleMethodNames_eq reads given scan
  refine ⟨results, done, ?_, ?_⟩
  · obtain ⟨q, listed, equal⟩ : ∃ q ∈ scan, q.queueName = name := by
      simpa [handleQueueNames, getJobCriteriaValues] using offered
    have present := order.mem_iff.mp listed
    obtain ⟨result, found, own⟩ := all q present
      ((matches_queueName_iff given q).mpr (by simp [equal, textContains]))
    obtain ⟨row, stored, _, shown⟩ := genuine result found
    obtain rfl : row = q :=
      List.inj_on_of_nodup_map guids stored present (shown.jobId.symm.trans own)
    exact ⟨result, found, shown.queue.trans equal⟩
  · have unique : ((scan.filter selected).map SqlCommonDbOddJobMetaData.jobGuid).Nodup :=
      ((order.map _).nodup_iff.mpr guids).sublist (List.filter_sublist.map _)
    have keys : (results.map JobMetadataResult.jobId).Perm
        ((scan.filter selected).map SqlCommonDbOddJobMetaData.jobGuid) := by
      refine (List.perm_ext_iff_of_nodup once unique).mpr fun jobGuid => ?_
      simp only [List.mem_map, List.mem_filter, same, order.mem_iff]
      constructor
      · rintro ⟨result, found, rfl⟩
        obtain ⟨row, stored, matched, shown⟩ := genuine result found
        exact ⟨row, ⟨stored, matched⟩, shown.jobId.symm⟩
      · rintro ⟨row, ⟨stored, matched⟩, rfl⟩
        exact all row stored matched
    rw [names]
    refine List.Perm.cons none (map_perm_of_keys keys unique fun result found => ?_).symm
    obtain ⟨row, stored, matched, shown⟩ := genuine result found
    refine ⟨row, ?_, shown.jobId.symm, congrArg some shown.methodName.symm⟩
    exact List.mem_filter.mpr ⟨order.mem_iff.mpr stored, (same row).mpr matched⟩

end Operator

def rowPlatform : Helpers.Platform SearchColumn Empty Empty SqlCommonDbOddJobMetaData where
  toLower text := String.ofList (text.toList.map Char.toLower)
  toUpper text := String.ofList (text.toList.map Char.toUpper)
  toText _ := ""
  equal _ _ := false
  newArray _ := .null
  member column outcomes :=
    match outcomes with
    | [.ok (.object q)] => .ok (.text (column.get q))
    | _ => .error .invalidOperation
  other kind _ := kind.elim
  scope kind _ _ := kind.elim

def queryOf (tables : Tables) (selected : SqlCommonDbOddJobMetaData → Bool) :
    List SqlQueueRowSet :=
  joinQuery (tables.queue.filter selected) tables

def searchedStore : Store := Store.sampleStore (Store.sampleJobData [Store.sampleArg 0 "5"])

theorem rowPlatform_reads : ReadsColumns rowPlatform := fun _ _ => rfl

theorem searchedStore_reached : Reaches (@manage Int _) anyAction {} searchedStore := by
  have run : execute (fun _ _ => true) manage {} ((Store.sampleInsert
    (Store.sampleJobData [Store.sampleArg 0 "5"])).map .client) = some searchedStore := rfl
  exact reaches_of_execute (fun _ _ _ => trivial) run

def foundJob : JobMetadataResult where
  jobId := 7
  jobArgs := [{
    ordinal := 0
    type := some "System.Int64, %coretarget%"
    name := some "count"
    value := some "5" }]
  typeExecutedOn := "Jobs.SampleJob, Jobs"
  methodName := "Add"
  status := "New"
  methodGenericTypes := [some "Jobs.SampleJob, Jobs"]
  executionTime := ""
  retryParameters := ⟨0, 0, 0, none⟩
  queue := "default"

theorem foundJob_found : handleSearch rowPlatform (fun _ => "") (queryOf searchedStore.tables)
    { queueName := some "FAUL" } = .ok [foundJob] := rfl

theorem search_finds_matching_of_upper :
    ∃ row ∈ searchedStore.tables.queue, Shows searchedStore.tables (fun _ => "") row foundJob := by
  obtain ⟨results, done, _, _, shown⟩ := @search_finds_matching _ _ _ _ _ _ (fun _ => "") _
    rowPlatform_reads searchedStore_reached (fun _ => List.Perm.refl _) { queueName := some "FAUL" }
  obtain rfl : [foundJob] = results := Except.ok.inj (foundJob_found.symm.trans done)
  obtain ⟨row, stored, _, shows⟩ := shown foundJob List.mem_cons_self
  exact ⟨row, stored, shows⟩

theorem offered_names_find_of_default :
    (handleMethodNames rowPlatform (some "default") searchedStore.tables.queue).Perm
      [none, some "Add"] := by
  obtain ⟨results, done, _, names⟩ := @offered_names_find _ _ _ _ _ _ (fun _ => "") _
    rowPlatform_reads searchedStore_reached (fun _ => List.Perm.refl _) _ (List.Perm.refl _)
    "default" (by decide) (by decide)
  have value : handleSearch rowPlatform (fun _ => "") (queryOf searchedStore.tables)
      { queueName := some "default" } = .ok [foundJob] := rfl
  obtain rfl : [foundJob] = results := Except.ok.inj (value.symm.trans done)
  exact names

/-- Give the job up, if it is still new. -/
def giveUp : UpdateForJob :=
  { foundJob.updateData with
    requireOldStatus := true
    updateStatus := true
    newStatus := some "Failed" }

/-- The store once the job was given up. -/
def givenUp : Store :=
  { searchedStore with tables := (handle { updateData := some giveUp } searchedStore.tables).1 }

/-- The second of two operators is told that the job has changed. -/
theorem edit_of_found_of_two :
    handle { updateData := some giveUp } searchedStore.tables = (givenUp.tables, .ok true) ∧
    handle { updateData := some giveUp } givenUp.tables = (givenUp.tables, .ok false) := by
  have edit : EditOf foundJob giveUp [{ paramOrdinal := 0 }] := ⟨rfl, rfl, rfl, rfl⟩
  have later : Reaches (@manage Int _) anyAction searchedStore givenUp :=
    .next .refl trivial (rfl : manage searchedStore (.edit { updateData := some giveUp }) = _)
  refine ⟨rfl, ?_⟩
  obtain ⟨row, stored, _, _, changed⟩ := edit_of_found rowPlatform_reads searchedStore_reached
    (fun _ => List.Perm.refl _) foundJob_found List.mem_cons_self later edit (by decide)
  obtain rfl := List.mem_singleton.mp (stored : row ∈ [_])
  exact changed fun seen => absurd (seen rfl (by decide)) (by decide)

end OddJob.Presentation
