import OddJob.Presentation.Search
import OddJob.Sql.Edits

/-! The database under clients and operators, one statement at a time: the statements of any number
of edits come between each other and between those of clients. -/

namespace OddJob.Presentation

open Linq Sql Transition

/-- The command that `Handle(JobUpdateViewModel)` sends. -/
def JobUpdateViewModel.command (input : JobUpdateViewModel) : Except ClrException JobUpdateCommand :=
  match input.updateData with
  | none => .error .nullReference
  | some data =>
    match data.paramUpdates with
    | none => .error .argumentNull
    | some updates =>
      if distinct : (updates.map UpdateForParam.paramOrdinal).Nodup then
        .ok (data.command updates distinct)
      else .error .argument

theorem handle_eq (input : JobUpdateViewModel) (tables : Tables) :
    handle input tables = match input.command with
      | .error thrown => (tables, .error thrown)
      | .ok commandData => updateJobMetadataAndParameters commandData tables := by
  rw [handle, JobUpdateViewModel.command]
  cases input.updateData with
  | none => rfl
  | some data =>
    cases listed : data.paramUpdates with
    | none => simp only [listed]
    | some updates =>
      simp only [listed]
      by_cases distinct : (updates.map UpdateForParam.paramOrdinal).Nodup
      · simp only [distinct, ↓reduceDIte]
      · simp only [distinct, ↓reduceDIte]

theorem JobUpdateViewModel.exists_of_command {input : JobUpdateViewModel}
    {commandData : JobUpdateCommand} (sent : input.command = .ok commandData) :
    ∃ (data : UpdateForJob) (updates : List UpdateForParam)
      (distinct : (updates.map UpdateForParam.paramOrdinal).Nodup),
      commandData = data.command updates distinct := by
  unfold command at sent
  split at sent
  · cases sent
  · split at sent
    · cases sent
    · split at sent
      · cases sent
        exact ⟨_, _, _, rfl⟩
      · cases sent

/-- The database, and the update commands that have been begun. -/
structure Operators where
  store : Store := {}
  edits : List Editing := []

inductive OperatorsAction (Key : Type) where
  | client (action : Store.Action Key)
  | send (input : JobUpdateViewModel)
  | turn (index : Nat)
  | setParameterValue (metaData : SqlCommonOddJobParamMetaData)

namespace Operators

variable {Key : Type} [LinearOrder Key]

/-- A statement of a client, the first statement of an edit, a turn of its loop, or a turn of the
loop of `UpdateJobParameterValues`. -/
def step (operators : Operators) : OperatorsAction Key → Option Operators
  | .client action => (operators.store.step action).map fun store => { operators with store }
  | .send input =>
    match input.command with
    | .error _ => some operators
    | .ok commandData =>
      let (tables, editing) := commandData.begin operators.store.tables
      some {
        store := { operators.store with tables }
        edits := operators.edits ++ [editing] }
  | .turn index =>
    operators.edits[index]?.map fun editing =>
      let (tables, editing) := editing.turn operators.store.tables
      { store := { operators.store with tables }
        edits := operators.edits.set index editing }
  | .setParameterValue metaData =>
    let tables := Sql.setParameterValue metaData operators.store.tables
    some { operators with store := { operators.store with tables } }

inductive Moves (operators : Operators) : OperatorsAction Key → Operators → Prop where
  | client (action : Store.Action Key) (store : Store)
      (taken : operators.store.step action = some store) :
      Moves operators (.client action) { operators with store }
  | threw (input : JobUpdateViewModel) : Moves operators (.send input) operators
  | sent (input : JobUpdateViewModel) (data : UpdateForJob) (updates : List UpdateForParam)
      (distinct : (updates.map UpdateForParam.paramOrdinal).Nodup)
      (command : input.command = .ok (data.command updates distinct)) :
      Moves operators (.send input) {
        store := { operators.store with
          tables := ((data.command updates distinct).begin operators.store.tables).1 }
        edits := operators.edits ++
          [((data.command updates distinct).begin operators.store.tables).2] }
  | turned (index : Nat) (editing : Editing) (running : operators.edits[index]? = some editing) :
      Moves operators (.turn index) {
        store := { operators.store with tables := (editing.turn operators.store.tables).1 }
        edits := operators.edits.set index (editing.turn operators.store.tables).2 }
  | set (metaData : SqlCommonOddJobParamMetaData) :
      Moves operators (.setParameterValue metaData) { operators with
        store := { operators.store with
          tables := Sql.setParameterValue metaData operators.store.tables } }

variable {operators after : Operators} {action : OperatorsAction Key}

theorem moves_of_step (taken : operators.step action = some after) :
    Moves operators action after := by
  cases action with
  | client action =>
    obtain ⟨store, done, rfl⟩ := Option.map_eq_some_iff.mp taken
    exact .client action store done
  | send input =>
    simp only [step] at taken
    cases sent : input.command with
    | error thrown =>
      simp only [sent] at taken
      cases taken
      exact .threw input
    | ok commandData =>
      obtain ⟨data, updates, distinct, rfl⟩ := JobUpdateViewModel.exists_of_command sent
      simp only [sent] at taken
      cases taken
      exact .sent input data updates distinct sent
  | turn index =>
    obtain ⟨editing, running, rfl⟩ := Option.map_eq_some_iff.mp taken
    exact .turned index editing running
  | setParameterValue metaData =>
    cases taken
    exact .set metaData

private theorem reaches_turns {earlier : List Editing} (count : Nat) {editing : Editing}
    (last : operators.edits = earlier ++ [editing]) :
    Reaches (@Operators.step Key _) anyAction operators {
      store := { operators.store with
        tables := (Editing.turns count (operators.store.tables, editing)).1 }
      edits := earlier ++ [(Editing.turns count (operators.store.tables, editing)).2] } := by
  induction count generalizing operators editing with
  | zero =>
    rw [Editing.turns, ← last]
    exact .refl
  | succ count ih =>
    have found : operators.edits[earlier.length]? = some editing := by
      rw [last]
      exact List.getElem?_concat_length
    have taken : operators.step (.turn earlier.length : OperatorsAction Key) = some _ :=
      congrArg (Option.map _) found
    have moved : operators.edits.set earlier.length (editing.turn operators.store.tables).2 =
        earlier ++ [(editing.turn operators.store.tables).2] := by
      rw [last, List.set_append_right _ _ le_rfl, Nat.sub_self, List.set_cons_zero]
    simp only [moved] at taken
    exact Reaches.trans (.next .refl trivial taken) (ih rfl)

/-- Undisturbed, an edit is the whole call of the handler. -/
theorem reaches_handle (operators : Operators) (input : JobUpdateViewModel) :
    ∃ edits, Reaches (@Operators.step Key _) anyAction operators {
      store := { operators.store with tables := (handle input operators.store.tables).1 }
      edits } ∧
      ∀ commandData, input.command = .ok commandData → edits = operators.edits ++
        [⟨commandData.jobGuid, [], some (handle input operators.store.tables).2⟩] := by
  rw [handle_eq]
  cases sent : input.command with
  | error thrown => exact ⟨operators.edits, .refl, fun _ impossible => by cases impossible⟩
  | ok commandData =>
    obtain ⟨count, whole⟩ := turns_begin_eq commandData operators.store.tables
    obtain ⟨⟨tables, editing⟩, begun⟩ : ∃ begun, commandData.begin operators.store.tables = begun :=
      ⟨_, rfl⟩
    have taken : operators.step (.send input : OperatorsAction Key) = some {
        store := { operators.store with tables }
        edits := operators.edits ++ [editing] } := by
      simp only [step, sent, begun]
    have run := @reaches_turns Key _ ⟨{ operators.store with tables }, operators.edits ++ [editing]⟩
      operators.edits count editing rfl
    rw [begun] at whole
    simp only [whole] at run
    refine ⟨_, Reaches.trans (.next .refl trivial taken) run, fun other same => ?_⟩
    obtain rfl := Except.ok.inj same
    rfl

/-- The loop of `UpdateJobParameterValues` is its turns. -/
theorem reaches_updateJobParameterValues (operators : Operators)
    (metaDatas : List SqlCommonOddJobParamMetaData) :
    Reaches (@Operators.step Key _) anyAction operators { operators with
      store := { operators.store with
        tables := (updateJobParameterValues metaDatas operators.store.tables).1 } } := by
  induction metaDatas generalizing operators with
  | nil => exact .refl
  | cons metaData rest ih =>
    have taken : operators.step (.setParameterValue metaData : OperatorsAction Key) = some _ := rfl
    exact Reaches.trans (.next .refl trivial taken) (ih _)

end Operators

section Keys

variable {jobGuid : Guid} {tables : Tables} {data : UpdateForJob} {updates : List UpdateForParam}
  {distinct : (updates.map UpdateForParam.paramOrdinal).Nodup}

/-- The parameter rows of a job. -/
def ownParams (jobGuid : Guid) (tables : Tables) : List SqlCommonOddJobParamMetaData :=
  tables.params.filter fun s => s.jobGuid = jobGuid

theorem begin_keeps (data : UpdateForJob) (updates : List UpdateForParam)
    (distinct : (updates.map UpdateForParam.paramOrdinal).Nodup) (tables : Tables) :
    guidsOf ((data.command updates distinct).begin tables).1 = guidsOf tables ∧
      ((data.command updates distinct).begin tables).1.params = tables.params ∧
      ((data.command updates distinct).begin tables).2.left ⊆
        (data.command updates distinct).parameters := by
  have setters : (data.command updates distinct).setJobMetadata = some data.updateSet := rfl
  have looped : (data.command updates distinct).setJobParameters.isSome = true := rfl
  obtain ⟨parameters, given⟩ := Option.isSome_iff_exists.mp looped
  simp only [JobUpdateCommand.begin, setters, JobUpdateCommand.parameters, given]
  cases updated : updateCommand (data.command updates distinct) data.updateSet tables.queue with
  | none => exact ⟨rfl, rfl, List.nil_subset _⟩
  | some queue =>
    cases tables.queue.any (data.command updates distinct).updatable with
    | false => exact ⟨guids_command updated, rfl, List.nil_subset _⟩
    | true => exact ⟨guids_command updated, rfl, List.Subset.refl _⟩

private theorem paramKeysOf_updateWhere {selected : SqlCommonOddJobParamMetaData → Bool}
    {setters : List (Assignment ParamColumn)} (keeps : KeepsKey setters) (tables : Tables) :
    paramKeysOf { tables with params := updateWhere selected (assign setters) tables.params } =
      paramKeysOf tables :=
  map_updateWhere _ (fun s => Prod.ext (keeps.jobGuid_assign s) (keeps.paramOrdinal_assign s)) _

private theorem paramKeysOf_setParameterValue (metaData : SqlCommonOddJobParamMetaData)
    (tables : Tables) : paramKeysOf (Sql.setParameterValue metaData tables) = paramKeysOf tables :=
  map_updateWhere _ (by intro _; rfl) _

theorem paramKeysOf_turn {editing : Editing}
    (keeps : ∀ entry ∈ editing.left, ∃ setters, entry.2 = some setters ∧ KeepsKey setters)
    (tables : Tables) : paramKeysOf (editing.turn tables).1 = paramKeysOf tables := by
  obtain ⟨-, -, same | ⟨ordinal, setters, member, same⟩⟩ := editing.turn_moves tables
  · rw [same]
  · obtain ⟨_, given, kept⟩ := keeps _ member
    obtain rfl := Option.some.inj given
    rw [same]
    exact paramKeysOf_updateWhere kept tables

theorem ownParams_updateWhere_other {other : Guid} (different : other ≠ jobGuid)
    (ordinal : Int) {set : SqlCommonOddJobParamMetaData → SqlCommonOddJobParamMetaData}
    (kept : ∀ s, (set s).jobGuid = s.jobGuid) (tables : Tables) :
    ownParams jobGuid { tables with
        params := updateWhere (updatableParam other ordinal) set tables.params } =
      ownParams jobGuid tables := by
  rw [ownParams, ownParams, updateWhere, List.filter_map]
  have same : ((fun s : SqlCommonOddJobParamMetaData => decide (s.jobGuid = jobGuid)) ∘
      fun row => if updatableParam other ordinal row = true then set row else row) =
        fun s => decide (s.jobGuid = jobGuid) := by
    funext s
    rw [Function.comp_apply]
    split
    · rw [kept]
    · rfl
  rw [same]
  refine (List.map_congr_left fun s member => ?_).trans (List.map_id _)
  have own := of_decide_eq_true (List.mem_filter.mp member).2
  rw [if_neg]
  · rfl
  · simp [updatableParam, own, Ne.symm different]

end Keys

/-- The keys of the parameters that an `AddJob` copies. -/
def paramKeysFor (jobData : SerializableOddJob) : List (Guid × Int) :=
  (getParamDataForJob jobData).map fun s => (s.jobGuid, s.paramOrdinal)

/-- The parameters of a store are those of the inserts that have copied them, whatever was made
of their values. -/
def Stocked (store : Store) : Prop :=
  Copied store.insertions (paramKeysOf store.tables) Prod.fst paramKeysFor Point.hasParams

section Stocked

variable {Key : Type} [LinearOrder Key] {store after : Store}

private theorem paramKeysOf_copyParams (tables : Tables) (jobData : SerializableOddJob) :
    paramKeysOf (tables.copyParams jobData) = paramKeysOf tables ++ paramKeysFor jobData := by
  rw [paramKeysOf, Tables.copyParams_params, List.map_append]
  rfl

/-- A statement of a client keeps the parameters of every job that has some. -/
theorem stocked_of_client (valid : Stocked store) (identified : Identified store)
    {action : Store.Action Key} (taken : store.step action = some after) :
    Stocked after ∧ ∀ jobGuid, ownParams jobGuid store.tables ≠ [] →
      ownParams jobGuid after.tables = ownParams jobGuid store.tables := by
  cases action with
  | insert jobData now =>
    simp only [Store.step] at taken
    split at taken
    · cases taken
    · rename_i fresh
      cases taken
      refine ⟨valid.begin (fun other member same => fresh ?_) rfl, fun _ _ => rfl⟩
      exact List.any_eq_true.mpr ⟨other, member, by simpa using same⟩
  | proceed jobId =>
    obtain ⟨insertion, found, rfl⟩ := Option.map_eq_some_iff.mp taken
    have member := List.mem_of_find?_eq_some found
    cases point : insertion.point with
    | inserted =>
      simp only [Store.proceed, point]
      refine ⟨?_, fun jobGuid there => ?_⟩
      · rw [Stocked, paramKeysOf_copyParams]
        refine valid.copy identified.distinct member (by rw [point]; rfl) rfl ?_
        intro key listed
        obtain ⟨s, copied, rfl⟩ := List.mem_map.mp listed
        obtain ⟨arg, _, rfl⟩ := List.mem_map.mp copied
        rfl
      · have other : insertion.jobData.jobId ≠ jobGuid := by
          rintro rfl
          obtain ⟨s, present⟩ := List.exists_mem_of_ne_nil _ there
          obtain ⟨stored, own⟩ := List.mem_filter.mp present
          have copied := ((valid.exact insertion member _).mp
            ⟨List.mem_map_of_mem stored, of_decide_eq_true own⟩).1
          rw [point] at copied
          cases copied
        rw [ownParams, ownParams, Tables.copyParams_params, List.filter_append]
        have none : (getParamDataForJob insertion.jobData).filter
            (fun s => decide (s.jobGuid = jobGuid)) = [] := by
          rw [List.filter_eq_nil_iff]
          intro s listed
          obtain ⟨arg, _, rfl⟩ := List.mem_map.mp listed
          simpa using other
        rw [none, List.append_nil]
    | paramsCopied =>
      simp only [Store.proceed, point]
      refine ⟨?_, fun _ _ => ?_⟩
      · rw [Stocked, paramKeysOf, Tables.copyGenerics_params]
        exact valid.keep identified.distinct member (by rw [point]; rfl)
      · rw [ownParams, ownParams, Tables.copyGenerics_params]
    | genericsCopied =>
      simp only [Store.proceed, point]
      exact ⟨valid.keep identified.distinct member (by rw [point]; rfl), fun _ _ => rfl⟩
    | published =>
      rw [Store.proceed, point]
      exact ⟨valid, fun _ _ => rfl⟩
  | claim call scan =>
    simp only [Store.step] at taken
    split at taken
    · cases taken
      exact ⟨valid, fun _ _ => rfl⟩
    · cases taken
  | read lockGuid rows =>
    simp only [Store.step] at taken
    split at taken
    · cases taken
      exact ⟨valid, fun _ _ => rfl⟩
    · cases taken
  | mark mark jobId now =>
    simp only [Store.step] at taken
    split at taken
    · cases taken
      rw [Store.mark, mark.apply_eq]
      exact ⟨valid, fun _ _ => rfl⟩
    · cases taken

end Stocked

namespace Operators

variable {Key : Type} [LinearOrder Key] {operators before after final : Operators}
  {action : OperatorsAction Key} {allowed : Operators → OperatorsAction Key → Prop}

/-- Every job is there once with the parameters of its insert, and no edit is to rename one. -/
structure Valid (operators : Operators) : Prop where
  identified : Identified operators.store
  stocked : Stocked operators.store
  keeps : ∀ editing ∈ operators.edits, ∀ entry ∈ editing.left,
    ∃ setters, entry.2 = some setters ∧ KeepsKey setters

namespace Valid

theorem initial : Valid {} where
  identified := ⟨rfl, List.nodup_nil⟩
  stocked := ⟨fun _ member => absurd member List.not_mem_nil,
    fun _ member => absurd member List.not_mem_nil⟩
  keeps := fun _ member => absurd member List.not_mem_nil

private theorem edited (valid : operators.Valid) {tables : Tables} {edits : List Editing}
    (guids : guidsOf tables = guidsOf operators.store.tables)
    (params : paramKeysOf tables = paramKeysOf operators.store.tables)
    (keeps : ∀ editing ∈ edits, ∀ entry ∈ editing.left,
      ∃ setters, entry.2 = some setters ∧ KeepsKey setters) :
    Valid { store := { operators.store with tables }, edits } := by
  refine ⟨⟨guids.trans valid.identified.guids, valid.identified.distinct⟩, ?_, keeps⟩
  rw [Stocked, params]
  exact valid.stocked

theorem step (valid : operators.Valid) (move : Moves operators action after) : after.Valid := by
  cases move with
  | client action store taken =>
    exact ⟨valid.identified.client taken,
      (stocked_of_client valid.stocked valid.identified taken).1, valid.keeps⟩
  | threw => exact valid
  | sent input data updates distinct command =>
    obtain ⟨guids, params, left⟩ := begin_keeps data updates distinct operators.store.tables
    have keys : paramKeysOf ((data.command updates distinct).begin operators.store.tables).1 =
        paramKeysOf operators.store.tables := by rw [paramKeysOf, paramKeysOf, params]
    refine valid.edited guids keys fun editing member entry listed => ?_
    rcases List.mem_append.mp member with older | last
    · exact valid.keeps editing older entry listed
    · obtain rfl := List.mem_singleton.mp last
      exact UpdateForJob.keepsKey_command entry (left listed)
  | turned index editing running =>
    have given := valid.keeps editing (List.mem_of_getElem? running)
    obtain ⟨-, left, tables⟩ := editing.turn_moves operators.store.tables
    refine valid.edited ?_ (paramKeysOf_turn given _) fun other member entry listed => ?_
    · rcases tables with same | ⟨_, _, _, same⟩
      · rw [same]
      · rw [same]
        rfl
    · rcases List.mem_or_eq_of_mem_set member with older | rfl
      · exact valid.keeps other older entry listed
      · exact given entry (left listed)
  | set metaData => exact valid.edited rfl (paramKeysOf_setParameterValue _ _) valid.keeps

theorem reaches (valid : before.Valid) (run : Reaches Operators.step allowed before after) :
    after.Valid :=
  run.invariant valid fun _ _ _ holds _ taken => holds.step (moves_of_step taken)

end Valid

theorem kept_of_moves (valid : operators.Valid) (move : Moves operators action after) :
    guidsOf operators.store.tables ⊆ guidsOf after.store.tables ∧
      paramKeysOf operators.store.tables ⊆ paramKeysOf after.store.tables := by
  cases move with
  | client action store taken =>
    rcases keeps_or_inserts taken with ⟨guids, _, params⟩ | ⟨jobId, _, guids, _, params⟩
    · exact ⟨guids ▸ List.Subset.refl _, List.map_subset _ params⟩
    · refine ⟨guids ▸ List.subset_append_left _ _, ?_⟩
      rw [paramKeysOf, paramKeysOf, params]
      exact List.Subset.refl _
  | threw => exact ⟨List.Subset.refl _, List.Subset.refl _⟩
  | sent input data updates distinct command =>
    obtain ⟨guids, params, -⟩ := begin_keeps data updates distinct operators.store.tables
    refine ⟨guids ▸ List.Subset.refl _, ?_⟩
    rw [paramKeysOf, paramKeysOf, params]
    exact List.Subset.refl _
  | turned index editing running =>
    obtain ⟨-, -, tables⟩ := editing.turn_moves operators.store.tables
    refine ⟨?_, ?_⟩
    · rcases tables with same | ⟨_, _, _, same⟩ <;> rw [same] <;> exact List.Subset.refl _
    · rw [paramKeysOf_turn (valid.keeps editing (List.mem_of_getElem? running))]
      exact List.Subset.refl _
  | set metaData =>
    refine ⟨List.Subset.refl _, ?_⟩
    rw [paramKeysOf_setParameterValue]
    exact List.Subset.refl _

theorem kept_of_reaches (valid : before.Valid)
    (run : Reaches Operators.step allowed before after) :
    guidsOf before.store.tables ⊆ guidsOf after.store.tables ∧
      paramKeysOf before.store.tables ⊆ paramKeysOf after.store.tables := by
  induction run with
  | refl => exact ⟨List.Subset.refl _, List.Subset.refl _⟩
  | next earlier _ taken ih =>
    obtain ⟨guids, params⟩ := kept_of_moves (valid.reaches earlier) (moves_of_step taken)
    exact ⟨List.Subset.trans ih.1 guids, List.Subset.trans ih.2 params⟩

end Operators

end OddJob.Presentation
