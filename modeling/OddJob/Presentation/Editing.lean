import OddJob.Presentation.Operators

/-! Edits under way: what an edit has published between two of its statements, and why nobody else
can break it. -/

namespace OddJob.Presentation.Operators

open Linq Sql Transition

variable {Key : Type} [LinearOrder Key] {operators before after final : Operators}
  {action : OperatorsAction Key} {allowed : Operators → OperatorsAction Key → Prop}

section Published

variable {data : UpdateForJob} {done : List UpdateForParam} {update : UpdateForParam}

private theorem ownParams_edited (tables : Tables) :
    ownParams data.jobGuid (data.edited done tables) =
      (ownParams data.jobGuid tables).map fun s =>
        (done.find? fun update => update.paramOrdinal = s.paramOrdinal).elim s fun update =>
          update.edit s := by
  rw [ownParams, ownParams, UpdateForJob.edited, List.filter_map]
  have same : ((fun s : SqlCommonOddJobParamMetaData => decide (s.jobGuid = data.jobGuid)) ∘
      fun s => if s.jobGuid = data.jobGuid then
        ((done.find? fun update => update.paramOrdinal = s.paramOrdinal).elim s fun update =>
          update.edit s)
      else s) = fun s => decide (s.jobGuid = data.jobGuid) := by
    funext s
    rw [Function.comp_apply]
    split
    · cases done.find? fun update => decide (update.paramOrdinal = s.paramOrdinal) <;> rfl
    · rfl
  rw [same]
  refine List.map_congr_left fun s member => ?_
  rw [if_pos (of_decide_eq_true (List.mem_filter.mp member).2)]

private theorem ownParams_update {now before : Tables}
    (fresh : update.paramOrdinal ∉ done.map UpdateForParam.paramOrdinal)
    (so_far : ownParams data.jobGuid now = ownParams data.jobGuid (data.edited done before)) :
    ownParams data.jobGuid { now with
        params := updateWhere (updatableParam data.jobGuid update.paramOrdinal)
          (assign ((buildParamUpdateSet update).2.getD [])) now.params } =
      ownParams data.jobGuid (data.edited (done ++ [update]) before) := by
  have commutes : ownParams data.jobGuid { now with
        params := updateWhere (updatableParam data.jobGuid update.paramOrdinal)
          (assign ((buildParamUpdateSet update).2.getD [])) now.params } =
      updateWhere (updatableParam data.jobGuid update.paramOrdinal) update.edit
        (ownParams data.jobGuid now) := by
    rw [ownParams, ownParams, updateWhere, updateWhere, List.filter_map]
    have same : ((fun s : SqlCommonOddJobParamMetaData => decide (s.jobGuid = data.jobGuid)) ∘
        fun row => if updatableParam data.jobGuid update.paramOrdinal row = true then
          assign ((buildParamUpdateSet update).2.getD []) row else row) =
            fun s => decide (s.jobGuid = data.jobGuid) := by
      funext s
      rw [Function.comp_apply, UpdateForJob.assign_buildParamUpdateSet]
      split <;> rfl
    rw [same]
    exact List.map_congr_left fun s _ => by rw [UpdateForJob.assign_buildParamUpdateSet]
  rw [commutes, so_far, ownParams_edited, ownParams_edited, updateWhere, List.map_map]
  refine List.map_congr_left fun s member => ?_
  have own : s.jobGuid = data.jobGuid := of_decide_eq_true (List.mem_filter.mp member).2
  rw [Function.comp_apply, List.find?_append]
  by_cases number : s.paramOrdinal = update.paramOrdinal
  · have none : done.find? (fun update => decide (update.paramOrdinal = s.paramOrdinal)) = none := by
      rw [List.find?_eq_none]
      intro other listed same
      exact fresh (List.mem_map.mpr ⟨other, listed, (of_decide_eq_true same).trans number⟩)
    simp only [none]
    simp [updatableParam, own, number]
  · have unselected : ∀ row : SqlCommonOddJobParamMetaData, row.paramOrdinal = s.paramOrdinal →
        updatableParam data.jobGuid update.paramOrdinal row = false := by
      intro row same
      simp [updatableParam, same, number]
    have other : ([update].find? fun update => decide (update.paramOrdinal = s.paramOrdinal)) =
        none := by simp [Ne.symm number]
    rw [other, Option.or_none, if_neg]
    rw [unselected]
    · simp
    · cases done.find? fun update => decide (update.paramOrdinal = s.paramOrdinal) <;> rfl

end Published

section UnderWay

variable {place : Nat} {jobGuid : Guid} {left : List UpdateForParam}

/-- What is left of the updates of an edit, which has returned true if there is nothing. -/
def Stands (operators : Operators) (place : Nat) (jobGuid : Guid) (left : List UpdateForParam) :
    Prop :=
  operators.edits[place]? = some { jobGuid, left := left.map buildParamUpdateSet } ∨
    left = [] ∧ operators.edits[place]? = some ⟨jobGuid, [], some (.ok true)⟩

/-- The parameters that are still to be set are there. -/
def Provides (operators : Operators) (jobGuid : Guid) (left : List UpdateForParam) : Prop :=
  ∀ update ∈ left, (jobGuid, update.paramOrdinal) ∈ paramKeysOf operators.store.tables

private theorem any_updatableParam {ordinal : Int} {tables : Tables}
    (there : (jobGuid, ordinal) ∈ paramKeysOf tables) :
    tables.params.any (updatableParam jobGuid ordinal) = true := by
  obtain ⟨s, present, key⟩ := List.mem_map.mp there
  obtain ⟨guid, number⟩ := Prod.ext_iff.mp key
  exact List.any_eq_true.mpr ⟨s, present, by simpa [updatableParam] using ⟨guid, number⟩⟩

private theorem turn_update {update : UpdateForParam} {rest : List UpdateForParam} {tables : Tables}
    (there : (jobGuid, update.paramOrdinal) ∈ paramKeysOf tables) :
    ({ jobGuid, left := (update :: rest).map buildParamUpdateSet } : Editing).turn tables =
      ({ tables with
          params := updateWhere (updatableParam jobGuid update.paramOrdinal)
            (assign ((buildParamUpdateSet update).2.getD [])) tables.params },
        { jobGuid, left := rest.map buildParamUpdateSet }) :=
  Editing.turn_of_found (any_updatableParam there)

private theorem edit_of_other {editing : Editing} (other : action ≠ .turn place)
    (found : operators.edits[place]? = some editing) (move : Moves operators action after) :
    after.edits[place]? = some editing := by
  cases move with
  | client | threw | set => exact found
  | sent input data updates distinct command =>
    rw [List.getElem?_append_left (List.getElem?_eq_some_iff.mp found).1]
    exact found
  | turned index editing running =>
    rw [List.getElem?_set_ne fun same => other (congrArg _ same)]
    exact found

private theorem edit_of_turn {editing : Editing}
    (found : operators.edits[place]? = some editing)
    (move : Moves operators (.turn place : OperatorsAction Key) after) :
    after.edits[place]? = some (editing.turn operators.store.tables).2 ∧
      after.store.tables = (editing.turn operators.store.tables).1 := by
  cases move with
  | turned index other running =>
    obtain rfl := Option.some.inj (running.symm.trans found)
    exact ⟨List.getElem?_set_self (List.getElem?_eq_some_iff.mp found).1, rfl⟩

private theorem stands_of_other (other : action ≠ .turn place)
    (stands : operators.Stands place jobGuid left) (move : Moves operators action after) :
    after.Stands place jobGuid left :=
  stands.imp (edit_of_other other · move) (And.imp_right (edit_of_other other · move))

private theorem stands_of_turn (stands : operators.Stands place jobGuid left)
    (provides : operators.Provides jobGuid left)
    (move : Moves operators (.turn place : OperatorsAction Key) after) :
    (left = [] ∧ after.Stands place jobGuid [] ∧ after.store.tables = operators.store.tables) ∨
    ∃ update rest, left = update :: rest ∧ after.Stands place jobGuid rest ∧
      after.store.tables = { operators.store.tables with
        params := updateWhere (updatableParam jobGuid update.paramOrdinal)
          (assign ((buildParamUpdateSet update).2.getD [])) operators.store.tables.params } := by
  rcases stands with found | ⟨rfl, found⟩
  · obtain ⟨turned, tables⟩ := edit_of_turn found move
    cases left with
    | nil => exact .inl ⟨rfl, .inr ⟨rfl, turned⟩, tables⟩
    | cons update rest =>
      rw [turn_update (provides update List.mem_cons_self)] at turned tables
      exact .inr ⟨update, rest, rfl, .inl turned, tables⟩
  · obtain ⟨turned, tables⟩ := edit_of_turn found move
    exact .inl ⟨rfl, .inr ⟨rfl, turned⟩, tables⟩

private theorem stands_of_moves (stands : operators.Stands place jobGuid left)
    (provides : operators.Provides jobGuid left) (move : Moves operators action after) :
    ∃ past rest, left = past ++ rest ∧ after.Stands place jobGuid rest := by
  by_cases own : action = .turn place
  · subst own
    rcases stands_of_turn stands provides move with ⟨rfl, back, -⟩ | ⟨update, rest, rfl, further, -⟩
    · exact ⟨[], [], rfl, back⟩
    · exact ⟨[update], rest, rfl, further⟩
  · exact ⟨[], left, rfl, stands_of_other own stands move⟩

private theorem Provides.reaches {rest done : List UpdateForParam} (valid : before.Valid)
    (provides : before.Provides jobGuid left) (split : left = done ++ rest)
    (run : Reaches Operators.step allowed before after) : after.Provides jobGuid rest :=
  fun update member => (kept_of_reaches valid run).2
    (provides update (split ▸ List.mem_append_right _ member))

private theorem stands_of_reaches (valid : before.Valid) (provides : before.Provides jobGuid left)
    (stands : before.Stands place jobGuid left) (run : Reaches Operators.step allowed before final) :
    ∃ done rest, left = done ++ rest ∧ final.Stands place jobGuid rest := by
  induction run with
  | refl => exact ⟨[], left, rfl, stands⟩
  | next earlier _ taken ih =>
    obtain ⟨done, rest, split, here⟩ := ih
    obtain ⟨past, left, further, there⟩ :=
      stands_of_moves here (provides.reaches valid split earlier) (moves_of_step taken)
    exact ⟨done ++ past, left, by rw [split, further, List.append_assoc], there⟩

private theorem completes (valid : operators.Valid) (stands : operators.Stands place jobGuid left)
    (provides : operators.Provides jobGuid left) :
    ∃ after, Reaches Operators.step (fun _ action => action = (.turn place : OperatorsAction Key))
        operators after ∧ after.edits[place]? = some ⟨jobGuid, [], some (.ok true)⟩ := by
  induction left generalizing operators with
  | nil =>
    rcases stands with found | ⟨-, found⟩
    · refine ⟨_, .next .refl rfl (by rw [Operators.step, found]; rfl), ?_⟩
      exact List.getElem?_set_self (List.getElem?_eq_some_iff.mp found).1
    · exact ⟨operators, .refl, found⟩
  | cons update rest ih =>
    obtain found | ⟨impossible, -⟩ := stands
    · have there := provides update List.mem_cons_self
      have taken : operators.step (.turn place : OperatorsAction Key) = some _ :=
        congrArg (Option.map _) found
      simp only [turn_update there] at taken
      have keys : paramKeysOf _ = paramKeysOf operators.store.tables :=
        paramKeysOf_turn (valid.keeps _ (List.mem_of_getElem? found)) operators.store.tables
      rw [turn_update there] at keys
      obtain ⟨after, run, back⟩ := ih (valid.step (moves_of_step taken))
        (.inl (List.getElem?_set_self (List.getElem?_eq_some_iff.mp found).1))
        (fun other member => keys ▸ provides other (List.mem_cons_of_mem _ member))
      exact ⟨after, Reaches.trans (.next .refl rfl taken) run, back⟩
    · cases impossible

end UnderWay

section Operator

variable {Other Scope : Type} {start begun : Operators}
  {platform : Helpers.Platform SearchColumn Other Scope SqlCommonDbOddJobMetaData}
  {dateText : Ticks → String} {query : (SqlCommonDbOddJobMetaData → Bool) → List SqlQueueRowSet}
  {criteria : JobSearchCriteria} {results : List JobMetadataResult} {result : JobMetadataResult}
  {data : UpdateForJob} {updates : List UpdateForParam}

private theorem begun_of_sent (reads : ReadsColumns platform)
    (reached : Reaches (@Operators.step Key _) anyAction {} start)
    (returned : ∀ selected, Returns start.store.tables selected (query selected))
    (found : handleSearch platform dateText query criteria = .ok results)
    (member : result ∈ results) (run : Reaches (@Operators.step Key _) anyAction start before)
    (edit : EditOf result data updates)
    (given : data.updateMethodName = true → data.newMethodName = none →
      isNullOrWhiteSpace data.newQueueName = true)
    (sent : before.step (.send { updateData := some data } : OperatorsAction Key) = some begun) :
    before.Valid ∧ before.Provides data.jobGuid updates ∧
    ∃ distinct : (updates.map UpdateForParam.paramOrdinal).Nodup,
    ∃ row ∈ before.store.tables.queue, row.jobGuid = result.jobId ∧
      (AsSeen data result row ↔ (data.command updates distinct).Finds before.store.tables) ∧
      (AsSeen data result row → begun = {
        store := { before.store with
          tables := (data.command updates distinct).updated before.store.tables }
        edits := before.edits ++
          [{ jobGuid := data.jobGuid, left := updates.map buildParamUpdateSet }] }) ∧
      (¬AsSeen data result row → begun = { before with
        edits := before.edits ++ [⟨data.jobGuid, [], some (.ok false)⟩] }) := by
  have initial := Valid.initial.reaches reached
  have valid := initial.reaches run
  obtain ⟨results, same, -, -, genuine⟩ :=
    @handleSearch_finds _ _ _ _ dateText _ reads initial.identified.nodup returned criteria
  obtain rfl := Except.ok.inj (found.symm.trans same)
  obtain ⟨old, stored, -, shown⟩ := genuine result member
  obtain ⟨guids, params⟩ := kept_of_reaches initial run
  obtain ⟨row, present, own⟩ := List.mem_map.mp (guids (List.mem_map_of_mem stored))
  have distinct := edit.distinct shown.increasing
  have finds : AsSeen data result row ↔
      (data.command updates distinct).Finds before.store.tables := by
    rw [UpdateForJob.finds_command_iff, edit.oldStatus]
    simp only [JobMetadataResult.updateData, Option.some.injEq]
    constructor
    · exact fun seen => ⟨row, present, own.trans (shown.jobId.symm.trans edit.jobGuid.symm), seen⟩
    · rintro ⟨q, listed, guid, seen⟩
      obtain rfl : q = row := List.inj_on_of_nodup_map valid.identified.nodup listed present
        (guid.trans (edit.jobGuid.trans (shown.jobId.trans own.symm)))
      exact seen
  have command : JobUpdateViewModel.command { updateData := some data } =
      .ok (data.command updates distinct) := by
    simp only [JobUpdateViewModel.command, edit.listed, distinct, ↓reduceDIte]
  simp only [Operators.step, command, Option.some.injEq,
    (UpdateForJob.wellFormed_command given : (data.command updates distinct).WellFormed).begin_eq
      rfl] at sent
  refine ⟨valid, ?_, distinct, row, present, own.trans shown.jobId.symm, finds, ?_, ?_⟩
  · intro update listed
    obtain ⟨s, there, guid, number⟩ := edit.stored shown params listed
    exact List.mem_map.mpr ⟨s, there, Prod.ext guid number⟩
  · intro seen
    have selected := JobUpdateCommand.finds_iff.mp (finds.mp seen)
    simp only [selected, ↓reduceIte] at sent
    exact sent.symm
  · intro unseen
    have missing := mt (fun selected => finds.mpr (JobUpdateCommand.finds_iff.mpr selected)) unseen
    simp only [missing, Bool.false_eq_true, ↓reduceIte] at sent
    exact sent.symm

/-- Whatever others do meanwhile, an edit whose first statement has found the job goes through
all its parameters and returns true; one whose first statement has not has changed nothing. -/
theorem begun_edits_complete (reads : ReadsColumns platform)
    (reached : Reaches (@Operators.step Key _) anyAction {} start)
    (returned : ∀ selected, Returns start.store.tables selected (query selected))
    (found : handleSearch platform dateText query criteria = .ok results)
    (member : result ∈ results) (run : Reaches (@Operators.step Key _) anyAction start before)
    (edit : EditOf result data updates)
    (given : data.updateMethodName = true → data.newMethodName = none →
      isNullOrWhiteSpace data.newQueueName = true)
    (sent : before.step (.send { updateData := some data } : OperatorsAction Key) = some begun)
    (later : Reaches (@Operators.step Key _) anyAction begun final) :
    ∃ row ∈ before.store.tables.queue, row.jobGuid = result.jobId ∧
      (¬AsSeen data result row → begun.store = before.store ∧
        final.edits[before.edits.length]? = some ⟨data.jobGuid, [], some (.ok false)⟩) ∧
      (AsSeen data result row → ∃ done left, updates = done ++ left ∧
        final.Stands before.edits.length data.jobGuid left ∧
        ∃ back, Reaches Operators.step
            (fun _ action => action = (.turn before.edits.length : OperatorsAction Key)) final back ∧
          back.edits[before.edits.length]? = some ⟨data.jobGuid, [], some (.ok true)⟩) := by
  obtain ⟨valid, provides, distinct, row, present, own, -, running, refused⟩ :=
    begun_of_sent reads reached returned found member run edit given sent
  have validBegun := valid.step (moves_of_step sent)
  have kept := (kept_of_moves valid (moves_of_step sent)).2
  refine ⟨row, present, own, fun unseen => ?_, fun seen => ?_⟩
  · obtain rfl := refused unseen
    refine ⟨rfl, @Reaches.invariant _ _ _ _ _ _ (fun operators : Operators =>
      operators.edits[before.edits.length]? = some ⟨data.jobGuid, [], some (.ok false)⟩) later
      List.getElem?_concat_length fun _ action _ here _ taken => ?_⟩
    by_cases turn : action = .turn before.edits.length
    · subst turn
      exact (edit_of_turn here (moves_of_step taken)).1
    · exact edit_of_other turn here (moves_of_step taken)
  · obtain rfl := running seen
    have there : Provides _ data.jobGuid updates := fun update listed => kept (provides update listed)
    obtain ⟨done, left, split, stands⟩ :=
      stands_of_reaches validBegun there (.inl List.getElem?_concat_length) later
    exact ⟨done, left, split, stands,
      completes (validBegun.reaches later) stands (there.reaches validBegun split later)⟩

/-- Nobody else is setting parameters of the job. -/
def Undisturbed (place : Nat) (jobGuid : Guid) (operators : Operators) :
    OperatorsAction Key → Prop
  | .turn index => index = place ∨ ∀ editing ∈ operators.edits[index]?, editing.jobGuid ≠ jobGuid
  | .setParameterValue metaData => metaData.jobGuid ≠ jobGuid
  | _ => True

private theorem ownParams_of_other {place : Nat} {jobGuid : Guid} (valid : operators.Valid)
    (there : ownParams jobGuid operators.store.tables ≠ [])
    (undisturbed : Undisturbed place jobGuid operators action) (other : action ≠ .turn place)
    (move : Moves operators action after) :
    ownParams jobGuid after.store.tables = ownParams jobGuid operators.store.tables := by
  cases move with
  | client action store taken =>
    exact (stocked_of_client valid.stocked valid.identified taken).2 jobGuid there
  | threw => rfl
  | sent input data updates distinct command =>
    rw [ownParams, ownParams, (begin_keeps data updates distinct operators.store.tables).2.1]
  | turned index editing running =>
    have different : editing.jobGuid ≠ jobGuid :=
      (undisturbed.resolve_left fun same => other (congrArg _ same)) editing running
    obtain ⟨-, -, same | ⟨ordinal, setters, member, same⟩⟩ :=
      editing.turn_moves operators.store.tables
    · rw [same]
    · obtain ⟨_, given, kept⟩ := valid.keeps editing (List.mem_of_getElem? running) _ member
      obtain rfl := Option.some.inj given
      rw [same]
      exact ownParams_updateWhere_other different ordinal kept.jobGuid_assign _
  | set metaData =>
    exact ownParams_updateWhere_other undisturbed _ (by intro _; rfl) _

private theorem published_of_reaches {place : Nat} {origin : Tables} (valid : before.Valid)
    (provides : before.Provides data.jobGuid updates)
    (stands : before.Stands place data.jobGuid updates)
    (distinct : (updates.map UpdateForParam.paramOrdinal).Nodup)
    (unchanged : ownParams data.jobGuid before.store.tables = ownParams data.jobGuid origin)
    (there : ownParams data.jobGuid origin ≠ [])
    (run : Reaches Operators.step (@Undisturbed Key place data.jobGuid) before final) :
    ∃ done left, updates = done ++ left ∧ final.Stands place data.jobGuid left ∧
      ownParams data.jobGuid final.store.tables =
        ownParams data.jobGuid (data.edited done origin) := by
  induction run with
  | refl =>
    refine ⟨[], updates, rfl, stands, ?_⟩
    rw [ownParams_edited, unchanged]
    exact (List.map_id _).symm
  | @next before action after earlier undisturbed taken ih =>
    obtain ⟨done, left, split, here, so_far⟩ := ih
    have move := moves_of_step taken
    have known := provides.reaches valid split earlier
    by_cases own : action = .turn place
    · subst own
      rcases stands_of_turn here known move with ⟨rfl, back, same⟩ | ⟨update, rest, rfl, further, set⟩
      · exact ⟨done, [], split, back, by rw [same, so_far]⟩
      · refine ⟨done ++ [update], rest, by rw [split, List.append_assoc]; rfl, further, ?_⟩
        rw [set]
        refine ownParams_update ?_ so_far
        rw [split, List.map_append, List.map_cons] at distinct
        exact fun member => List.disjoint_of_nodup_append distinct member List.mem_cons_self
    · have some_params : ownParams data.jobGuid before.store.tables ≠ [] := by
        rw [so_far, ownParams_edited]
        exact mt List.map_eq_nil_iff.mp there
      refine ⟨done, left, split, stands_of_other own here move, ?_⟩
      rw [ownParams_of_other (valid.reaches earlier) some_params undisturbed own move, so_far]

/-- An edit is published piece by piece: first the job with all its new columns, then its
parameters one after another, as long as nobody else sets parameters of that job. Whoever looks
at the job meanwhile sees the first of its updates and none of the others. -/
theorem edits_publish_in_order (reads : ReadsColumns platform)
    (reached : Reaches (@Operators.step Key _) anyAction {} start)
    (returned : ∀ selected, Returns start.store.tables selected (query selected))
    (found : handleSearch platform dateText query criteria = .ok results)
    (member : result ∈ results) (run : Reaches (@Operators.step Key _) anyAction start before)
    (edit : EditOf result data updates)
    (named : data.updateMethodName = true →
      isNullOrWhiteSpace data.newMethodName = isNullOrWhiteSpace data.newQueueName)
    (sent : before.step (.send { updateData := some data } : OperatorsAction Key) = some begun)
    (later : Reaches Operators.step (@Undisturbed Key before.edits.length data.jobGuid) begun final) :
    ∃ row ∈ before.store.tables.queue, row.jobGuid = result.jobId ∧
      (AsSeen data result row →
        begun.store.tables = { data.edited updates before.store.tables with
          params := before.store.tables.params } ∧
        (ownParams data.jobGuid before.store.tables ≠ [] → ∃ done left, updates = done ++ left ∧
          final.Stands before.edits.length data.jobGuid left ∧
          ownParams data.jobGuid final.store.tables =
            ownParams data.jobGuid (data.edited done before.store.tables))) := by
  have given : data.updateMethodName = true → data.newMethodName = none →
      isNullOrWhiteSpace data.newQueueName = true := by
    intro flagged null
    rw [← named flagged, null]
    rfl
  obtain ⟨valid, provides, distinct, row, present, own, finds, running, -⟩ :=
    begun_of_sent reads reached returned found member run edit given sent
  have validBegun := valid.step (moves_of_step sent)
  have kept := (kept_of_moves valid (moves_of_step sent)).2
  refine ⟨row, present, own, fun seen => ?_⟩
  obtain rfl := running seen
  constructor
  · have whole := (UpdateForJob.updated_eq_iff valid.identified.nodup (finds.mp seen)).mpr
      fun q _ _ => (UpdateForJob.storedMethodName_eq_iff data q).mpr fun flagged => .inl (named flagged)
    exact congrArg (fun tables : Tables => { tables with params := before.store.tables.params }) whole
  · intro there
    exact published_of_reaches validBegun (fun update listed => kept (provides update listed))
      (.inl List.getElem?_concat_length) distinct rfl there later

end Operator

def newValue : UpdateForParam where
  paramOrdinal := 0
  updateParamValue := true
  newParamValue := some "6"

/-- Run the job that was found with another argument, three times at most. -/
def correction : UpdateForJob :=
  { foundJob.updateData with
    requireOldStatus := true
    updateRetryCount := true
    newMaxRetryCount := 3
    paramUpdates := some [newValue] }

def searched : Operators := { store := searchedStore }

def otherValue : SqlCommonOddJobParamMetaData where
  jobGuid := 7
  paramOrdinal := 0
  serializedType := some "System.Int64, %coretarget%"
  serializedValue := some "7"

/-- The correction is sent. -/
def corrected : Operators where
  store := { searchedStore with
    tables := { correction.edited [newValue] searchedStore.tables with
      params := searchedStore.tables.params } }
  edits := [{ jobGuid := 7, left := [buildParamUpdateSet newValue] }]

theorem searched_reached : Reaches (@Operators.step Int _) anyAction {} searched := by
  have run : execute (fun _ _ => true) (@Operators.step Int _) {} ((Store.sampleInsert
    (Store.sampleJobData [Store.sampleArg 0 "5"])).map .client) = some searched := rfl
  exact reaches_of_execute (fun _ _ _ => trivial) run

/-- Another operator sets the argument before the first does. -/
theorem begun_edits_complete_of_correction :
    ∃ final back : Operators, Reaches (@Operators.step Int _) anyAction corrected final ∧
      Reaches Operators.step (fun _ action => action = (.turn 0 : OperatorsAction Int)) final back ∧
      back.edits[0]? = some ⟨7, [], some (.ok true)⟩ := by
  have edit : EditOf foundJob correction [newValue] := ⟨rfl, rfl, rfl, rfl⟩
  have later := @reaches_updateJobParameterValues Int _ corrected [otherValue]
  obtain ⟨row, stored, _, _, completes⟩ := @begun_edits_complete Int _ searched _ _ _ searched
    corrected _ (fun _ => "") _ _ _ _ _ _ rowPlatform_reads searched_reached
    (fun _ => List.Perm.refl _) foundJob_found List.mem_cons_self .refl edit (by decide) rfl later
  obtain rfl := List.mem_singleton.mp (stored : row ∈ [_])
  obtain ⟨_, _, _, _, back, run, returned⟩ := completes fun _ _ => rfl
  exact ⟨_, back, later, run, returned⟩

def readRun : List (OperatorsAction Int) := [
  .client (.read 40 (queryOf corrected.store.tables fun q => q.lockGuid = some 40)), .turn 0]

private def isAlone : OperatorsAction Int → Bool
  | .client _ | .turn 0 => true
  | _ => false

private theorem undisturbed_of_isAlone (operators : Operators) (action : OperatorsAction Int)
    (alone : isAlone action = true) : Undisturbed 0 7 operators action := by
  cases action with
  | client action => trivial
  | send input => trivial
  | turn index =>
    cases index with
    | zero => exact .inl rfl
    | succ index => cases alone
  | setParameterValue metaData => cases alone

theorem edits_publish_in_order_of_correction : ∃ final : Operators,
    execute (fun _ action => isAlone action) step corrected readRun = some final ∧
    final.store.fetched = [7] ∧
    ∃ done left, [newValue] = done ++ left ∧ final.Stands 0 7 left ∧
      ownParams 7 final.store.tables =
        ownParams 7 (correction.edited done searchedStore.tables) := by
  have edit : EditOf foundJob correction [newValue] := ⟨rfl, rfl, rfl, rfl⟩
  have ran : execute (fun _ action => isAlone action) step corrected readRun = some _ := rfl
  obtain ⟨row, stored, _, published⟩ := @edits_publish_in_order Int _ searched _ _ _ searched
    corrected _ (fun _ => "") _ _ _ _ _ _ rowPlatform_reads searched_reached
    (fun _ => List.Perm.refl _) foundJob_found List.mem_cons_self .refl edit (by decide) rfl
    (reaches_of_execute undisturbed_of_isAlone ran)
  obtain rfl := List.mem_singleton.mp (stored : row ∈ [_])
  have there : ownParams 7 searchedStore.tables ≠ [] := by decide
  exact ⟨_, ran, rfl, (published fun _ _ => rfl).2 there⟩

end OddJob.Presentation.Operators
