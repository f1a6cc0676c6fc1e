import OddJob.Sql.Update

/-! The edits of `BaseSqlJobQueueManager` one statement at a time. There is no transaction around
them, so that statements of others may come between any two. -/

namespace OddJob.Sql

open Linq

/-- An `UpdateJobMetadataAndParameters` after its first statement. -/
structure Editing where
  jobGuid : Guid
  /-- what the loop over `SetJobParameters` has still to come to -/
  left : List (Int × Option (List (Assignment ParamColumn)))
  returned : Option (Except ClrException Bool) := none

/-- What comes before the loop. -/
def JobUpdateCommand.begin (commandData : JobUpdateCommand) (tables : Tables) : Tables × Editing :=
  let answer (outcome : Except ClrException Bool) : Editing :=
    ⟨commandData.jobGuid, [], some outcome⟩
  match commandData.setJobMetadata with
  | none => (tables, answer (.error .nullReference))
  | some setters =>
    let ableToUpdateJob := tables.queue.any commandData.updatable
    match updateCommand commandData setters tables.queue with
    | none => (tables, answer (.error .database))
    | some queue =>
      match ableToUpdateJob, commandData.setJobParameters with
      | true, some parameters =>
        ({ tables with queue }, { jobGuid := commandData.jobGuid, left := parameters.entries })
      | able, _ => ({ tables with queue }, answer (.ok able))

namespace Editing

def answer (editing : Editing) (outcome : Except ClrException Bool) : Editing :=
  { editing with left := [], returned := some outcome }

/-- One turn of the loop, or the return after it. -/
def turn (tables : Tables) (editing : Editing) : Tables × Editing :=
  match editing.returned, editing.left with
  | some _, _ => (tables, editing)
  | none, [] => (tables, editing.answer (.ok true))
  | none, (_, none) :: _ => (tables, editing.answer (.error .nullReference))
  | none, (_, some []) :: rest => (tables, { editing with left := rest })
  | none, (ordinal, some setters) :: rest =>
    match paramDatabase.update (updatableParam editing.jobGuid ordinal) setters tables.params with
    | none => (tables, editing.answer (.error .database))
    | some params =>
      if tables.params.any (updatableParam editing.jobGuid ordinal) then
        ({ tables with params }, { editing with left := rest })
      else ({ tables with params }, editing.answer (.ok false))

/-- A turn goes on with what is left, and touches one parameter of its job or nothing. -/
theorem turn_moves (editing : Editing) (tables : Tables) :
    (editing.turn tables).2.jobGuid = editing.jobGuid ∧
      (editing.turn tables).2.left ⊆ editing.left ∧
      ((editing.turn tables).1 = tables ∨ ∃ ordinal setters,
        (ordinal, some setters) ∈ editing.left ∧
        (editing.turn tables).1 = { tables with
          params := updateWhere (updatableParam editing.jobGuid ordinal) (assign setters)
            tables.params }) := by
  obtain ⟨jobGuid, left, returned⟩ := editing
  cases returned with
  | some outcome => exact ⟨rfl, List.Subset.refl _, .inl rfl⟩
  | none =>
    cases left with
    | nil => exact ⟨rfl, List.Subset.refl _, .inl rfl⟩
    | cons entry rest =>
      obtain ⟨ordinal, command⟩ := entry
      match command with
      | none => exact ⟨rfl, List.nil_subset _, .inl rfl⟩
      | some [] => exact ⟨rfl, List.subset_cons_self _ _, .inl rfl⟩
      | some (first :: more) =>
        have accepted : paramDatabase.update (updatableParam jobGuid ordinal) (first :: more)
            tables.params = some (updateWhere (updatableParam jobGuid ordinal)
              (assign (first :: more)) tables.params) :=
          Database.allowing_update_eq_some fun _ _ => rfl
        simp only [turn, accepted]
        cases tables.params.any (updatableParam jobGuid ordinal) with
        | true =>
          exact ⟨rfl, List.subset_cons_self _ _, .inr ⟨_, _, List.mem_cons_self, rfl⟩⟩
        | false => exact ⟨rfl, List.nil_subset _, .inr ⟨_, _, List.mem_cons_self, rfl⟩⟩

/-- Where the parameter is there, the turn sets it and goes on. -/
theorem turn_of_found {jobGuid : Guid} {ordinal : Int} {setters : List (Assignment ParamColumn)}
    {rest : List (Int × Option (List (Assignment ParamColumn)))} {tables : Tables}
    (found : tables.params.any (updatableParam jobGuid ordinal) = true) :
    turn tables { jobGuid, left := (ordinal, some setters) :: rest } =
      ({ tables with
          params := updateWhere (updatableParam jobGuid ordinal) (assign setters) tables.params },
        { jobGuid, left := rest }) := by
  cases setters with
  | nil => simp [turn, updateWhere, assign]
  | cons first more =>
    have accepted : paramDatabase.update (updatableParam jobGuid ordinal) (first :: more)
        tables.params = some (updateWhere (updatableParam jobGuid ordinal)
          (assign (first :: more)) tables.params) :=
      Database.allowing_update_eq_some fun _ _ => rfl
    simp [turn, accepted, found]

/-- So many turns with nothing between them. -/
def turns : Nat → Tables × Editing → Tables × Editing
  | 0, state => state
  | count + 1, (tables, editing) => turns count (editing.turn tables)

/-- Undisturbed, the turns are the loop. -/
theorem turns_eq_updateParameters {jobGuid : Guid}
    (left : List (Int × Option (List (Assignment ParamColumn)))) (tables : Tables) :
    ∃ count, turns count (tables, { jobGuid, left }) =
      ((updateParameters jobGuid left tables).1,
        ⟨jobGuid, [], some (updateParameters jobGuid left tables).2⟩) := by
  induction left generalizing tables with
  | nil => exact ⟨1, rfl⟩
  | cons entry rest ih =>
    obtain ⟨ordinal, command⟩ := entry
    cases command with
    | none => exact ⟨1, rfl⟩
    | some setters =>
      cases setters with
      | nil =>
        obtain ⟨count, same⟩ := ih tables
        exact ⟨count + 1, same⟩
      | cons first more =>
        cases done : paramDatabase.update (updatableParam jobGuid ordinal) (first :: more) tables.params with
        | none => exact ⟨1, by simp [turns, turn, answer, updateParameters, done]⟩
        | some params =>
          cases found : tables.params.any (updatableParam jobGuid ordinal) with
          | true =>
            obtain ⟨count, same⟩ := ih { tables with params }
            refine ⟨count + 1, ?_⟩
            simpa [turns, turn, updateParameters, done, found] using same
          | false => exact ⟨1, by simp [turns, turn, answer, updateParameters, done, found]⟩

end Editing

theorem JobUpdateCommand.WellFormed.begin_eq {commandData : JobUpdateCommand}
    (valid : commandData.WellFormed) (looped : commandData.setJobParameters.isSome = true)
    (tables : Tables) :
    commandData.begin tables =
      if tables.queue.any commandData.updatable then
        (commandData.updated tables,
          { jobGuid := commandData.jobGuid, left := commandData.parameters })
      else (tables, ⟨commandData.jobGuid, [], some (.ok false)⟩) := by
  obtain ⟨setters, same, accepted⟩ := valid.metadata
  obtain ⟨parameters, given⟩ := Option.isSome_iff_exists.mp looped
  have done : updateCommand commandData setters tables.queue =
      some (commandData.updated tables).queue := by
    simp only [updated, JobUpdateCommand.metadata, same, Option.getD_some]
    cases setters with
    | nil => simp [updateCommand, updateWhere, assign]
    | cons first rest => exact Database.allowing_update_eq_some accepted
  simp only [JobUpdateCommand.begin, same, done, given, JobUpdateCommand.parameters]
  cases found : tables.queue.any commandData.updatable with
  | true => rfl
  | false =>
    rw [if_neg (by simp), JobUpdateCommand.updated, updateWhere_of_none found]

/-- Undisturbed, the statements are the whole command. -/
theorem turns_begin_eq (commandData : JobUpdateCommand) (tables : Tables) :
    ∃ count, Editing.turns count (commandData.begin tables) =
      ((updateJobMetadataAndParameters commandData tables).1, ⟨commandData.jobGuid, [],
        some (updateJobMetadataAndParameters commandData tables).2⟩) := by
  rw [JobUpdateCommand.begin, updateJobMetadataAndParameters]
  cases commandData.setJobMetadata with
  | none => exact ⟨0, rfl⟩
  | some setters =>
    cases done : updateCommand commandData setters tables.queue with
    | none => exact ⟨0, by simp [Editing.turns, done]⟩
    | some queue =>
      cases tables.queue.any commandData.updatable <;>
        cases commandData.setJobParameters <;> simp only [done]
      · exact ⟨0, rfl⟩
      · exact ⟨0, rfl⟩
      · exact ⟨0, rfl⟩
      · exact Editing.turns_eq_updateParameters _ _

/-- What `UpdateJobParameterValues` sets for one parameter; one that is not there is passed over. -/
def setParameterValue (metaData : SqlCommonOddJobParamMetaData) (tables : Tables) : Tables :=
  { tables with
    params := updateWhere (updatableParam metaData.jobGuid metaData.paramOrdinal)
      (fun q => { q with
        serializedType := metaData.serializedType
        serializedValue := metaData.serializedValue }) tables.params }

def updateJobParameterValues (metaDatas : List SqlCommonOddJobParamMetaData) (tables : Tables) :
    Tables × Bool :=
  (metaDatas.foldl (fun tables metaData => setParameterValue metaData tables) tables, true)

end OddJob.Sql
