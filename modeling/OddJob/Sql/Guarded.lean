import OddJob.Sql.Update

/-! The three updates of a job that check its status first: `UpdateJobMetadataValues`,
`UpdateJobMetadataFull` and `UpdateJobMetadataAndParameters`. -/

namespace OddJob.Sql

open Linq

/-- The `Where` that all three put together. -/
def updatable (jobGuid : Guid) (oldStatusIfRequired : Option String)
    (q : SqlCommonDbOddJobMetaData) : Bool :=
  q.jobGuid = jobGuid &&
    (isNullOrWhiteSpace oldStatusIfRequired || some q.status.text = oldStatusIfRequired)

def updateJobMetadataValues (setters : List (Assignment JobColumn)) (jobGuid : Guid)
    (oldStatusIfRequired : Option String) (tables : Tables)
    (database : Database JobColumn := jobDatabase) : Tables × Except ClrException Bool :=
  match setters with
  | [] => (tables, .ok false)
  | _ =>
    match database.update (updatable jobGuid oldStatusIfRequired) setters tables.queue with
    | none => (tables, .error .database)
    | some queue =>
      ({ tables with queue }, .ok (tables.queue.any (updatable jobGuid oldStatusIfRequired)))

/-- The properties of a row object; a text may be null. -/
abbrev RowObject : Type := (column : JobColumn) → column.Value

/-- The nine `Set`s of `UpdateJobMetadataFull`. -/
def fullSetters (metaDataToUpdate : RowObject) : List (Assignment JobColumn) := [
  ⟨.status, metaDataToUpdate .status⟩,
  ⟨.doNotExecuteBefore, metaDataToUpdate .doNotExecuteBefore⟩,
  ⟨.lockGuid, metaDataToUpdate .lockGuid⟩,
  ⟨.lockClaimTime, metaDataToUpdate .lockClaimTime⟩,
  ⟨.minRetryWait, metaDataToUpdate .minRetryWait⟩,
  ⟨.methodName, metaDataToUpdate .methodName⟩,
  ⟨.typeExecutedOn, metaDataToUpdate .typeExecutedOn⟩,
  ⟨.retryCount, metaDataToUpdate .retryCount⟩,
  ⟨.maxRetries, metaDataToUpdate .maxRetries⟩]

/-- The number of updated rows is not looked at. -/
def updateJobMetadataFull (metaDataToUpdate : RowObject) (oldStatusIfRequired : Option String)
    (tables : Tables) (database : Database JobColumn := jobDatabase) :
    Tables × Except ClrException Bool :=
  let jobGuid : Guid := metaDataToUpdate .jobGuid
  match database.update (updatable jobGuid oldStatusIfRequired) (fullSetters metaDataToUpdate)
      tables.queue with
  | none => (tables, .error .database)
  | some queue => ({ tables with queue }, .ok true)

/-- A guarded update: it says whether the row was there, and the row alone has taken the
assignments. -/
def Guards (jobGuid : Guid) (oldStatusIfRequired : Option String)
    (assignments : List (Assignment JobColumn)) (tables : Tables)
    (outcome : Tables × Except ClrException Bool) : Prop :=
  ∃ queue able, outcome = ({ tables with queue }, .ok able) ∧
    (able = true ↔ ∃ q ∈ tables.queue, updatable jobGuid oldStatusIfRequired q = true) ∧
    Rewrites (fun q => if updatable jobGuid oldStatusIfRequired q then assignments else [])
      tables.queue queue

section Guards

variable {jobGuid : Guid} {oldStatusIfRequired : Option String} {tables : Tables}
  {setters : List (Assignment JobColumn)} {database : Database JobColumn}

private theorem guards_update_iff {able : Bool} {outcome : Tables × Except ClrException Bool}
    (ran : outcome =
      match database.update (updatable jobGuid oldStatusIfRequired) setters tables.queue with
      | none => (tables, .error .database)
      | some queue => ({ tables with queue }, .ok able)) :
    Guards jobGuid oldStatusIfRequired setters tables outcome ↔
      (able = true ↔ ∃ q ∈ tables.queue, updatable jobGuid oldStatusIfRequired q = true) ∧
        database.takes (updatable jobGuid oldStatusIfRequired) setters tables.queue = true := by
  subst ran
  cases done : database.update (updatable jobGuid oldStatusIfRequired) setters tables.queue with
  | none =>
    have refused := Database.update_eq_none_iff.mp done
    constructor
    · rintro ⟨queue, flag, same, _⟩
      cases congrArg Prod.snd same
    · rintro ⟨_, taken⟩
      cases taken.symm.trans refused
  | some queue =>
    have taken := (Database.update_eq_some_iff.mp done).1
    constructor
    · rintro ⟨_, flag, same, honest, _⟩
      cases same
      exact ⟨honest, taken⟩
    · rintro ⟨honest, _⟩
      exact ⟨queue, able, rfl, honest, Database.rewrites_of_update done⟩

private theorem updateParameters_bare
    {parameters : List (Int × Option (List (Assignment ParamColumn)))}
    (bare : ∀ entry ∈ parameters, entry.2 = some []) (tables : Tables) :
    updateParameters jobGuid parameters tables = (tables, .ok true) := by
  induction parameters with
  | nil => rfl
  | cons entry rest ih =>
    obtain ⟨ordinal, command⟩ := entry
    obtain rfl : command = some [] := bare (ordinal, command) List.mem_cons_self
    exact ih fun other member => bare other (List.mem_cons_of_mem _ member)

private theorem updateJobMetadataAndParameters_bare
    {parameters : Option (Dictionary Int (Option (List (Assignment ParamColumn))))}
    (bare : ∀ given ∈ parameters, ∀ entry ∈ given.entries, entry.2 = some []) :
    updateJobMetadataAndParameters ⟨some setters, parameters, jobGuid, oldStatusIfRequired⟩ tables
        database =
      match updateCommand ⟨some setters, parameters, jobGuid, oldStatusIfRequired⟩ setters
        tables.queue database with
      | none => (tables, .error .database)
      | some queue => ({ tables with queue },
          .ok (tables.queue.any (updatable jobGuid oldStatusIfRequired))) := by
  have flag : tables.queue.any (JobUpdateCommand.updatable ⟨some setters, parameters, jobGuid,
      oldStatusIfRequired⟩) = tables.queue.any (updatable jobGuid oldStatusIfRequired) := rfl
  simp only [updateJobMetadataAndParameters, flag]
  cases updateCommand ⟨some setters, parameters, jobGuid, oldStatusIfRequired⟩ setters
    tables.queue database with
  | none => rfl
  | some queue =>
    cases tables.queue.any (updatable jobGuid oldStatusIfRequired) with
    | false => rfl
    | true =>
      cases parameters with
      | none => rfl
      | some given => exact updateParameters_bare (bare given rfl) _

private theorem guards_nil_iff {able : Bool} :
    Guards jobGuid oldStatusIfRequired [] tables (tables, .ok able) ↔
      (able = true ↔ ∃ q ∈ tables.queue, updatable jobGuid oldStatusIfRequired q = true) := by
  constructor
  · rintro ⟨queue, flag, same, honest, _⟩
    obtain rfl : able = flag := Except.ok.inj (congrArg Prod.snd same)
    exact honest
  · intro honest
    refine ⟨tables.queue, able, rfl, honest, ?_⟩
    rw [Rewrites, List.forall₂_same]
    intro q _
    rw [ite_self]
    have nothing : ∀ setter ∈ standing ([] : List (Assignment JobColumn)),
        setter.accepted = true := by
      rintro _ ⟨⟩
    exact assigned_assign nothing q

/-- The three updates guard their job exactly where the database carries out the statement
that they send, and `UpdateJobMetadataValues` has something to set where there is a row to
update, and `UpdateJobMetadataFull` has a row. -/
theorem guarded_updates_iff (database : Database JobColumn) (setters : List (Assignment JobColumn))
    (metaDataToUpdate : RowObject) (jobGuid : Guid) (oldStatusIfRequired : Option String)
    {parameters : Option (Dictionary Int (Option (List (Assignment ParamColumn))))}
    (bare : ∀ given ∈ parameters, ∀ entry ∈ given.entries, entry.2 = some []) (tables : Tables) :
    (Guards jobGuid oldStatusIfRequired setters tables
        (updateJobMetadataValues setters jobGuid oldStatusIfRequired tables database) ↔
      if setters = [] then ∀ q ∈ tables.queue, updatable jobGuid oldStatusIfRequired q = false
      else database.takes (updatable jobGuid oldStatusIfRequired) setters tables.queue = true) ∧
    (Guards (metaDataToUpdate .jobGuid) oldStatusIfRequired (fullSetters metaDataToUpdate) tables
        (updateJobMetadataFull metaDataToUpdate oldStatusIfRequired tables database) ↔
      (∃ q ∈ tables.queue, updatable (metaDataToUpdate .jobGuid) oldStatusIfRequired q = true) ∧
        database.takes (updatable (metaDataToUpdate .jobGuid) oldStatusIfRequired)
          (fullSetters metaDataToUpdate) tables.queue = true) ∧
    (Guards jobGuid oldStatusIfRequired setters tables
        (updateJobMetadataAndParameters ⟨some setters, parameters, jobGuid, oldStatusIfRequired⟩
          tables database) ↔
      (setters ≠ [] →
        database.takes (updatable jobGuid oldStatusIfRequired) setters tables.queue = true)) := by
  refine ⟨?_, ?_, ?_⟩
  · cases setters with
    | nil =>
      refine guards_nil_iff.trans ?_
      simp
    | cons first rest =>
      refine (guards_update_iff rfl).trans ?_
      simp
  · refine (guards_update_iff rfl).trans ?_
    simp only [true_iff]
  · rw [updateJobMetadataAndParameters_bare bare]
    cases setters with
    | nil =>
      refine guards_nil_iff.trans ?_
      simp
    | cons first rest =>
      refine (guards_update_iff rfl).trans ?_
      simp

end Guards

/-- The row object of a job with this guid, read back from the first row. -/
def editedObject (jobGuid : Guid) : RowObject
  | .jobGuid => jobGuid
  | column => JobColumn.get column (editedTables.queue.head (by decide))

/-- The table of the SQLite script: its ids can be set, but have to stay distinct, and what is
set twice in one statement is not looked at before the last time. -/
def sqlite : Database JobColumn where
  takes selected setters rows :=
    (!rows.any selected || (standing setters).all Assignment.accepted) &&
      decide ((updateWhere selected (assign setters) rows).map SqlCommonDbOddJobMetaData.id).Nodup
  accepted selected setters rows taken found := by
    have some_ : rows.any selected = true := List.any_eq_true.mpr found
    simp only [some_, Bool.not_true, Bool.false_or, Bool.and_eq_true, List.all_eq_true] at taken
    exact taken.1

theorem guarded_updates_iff_of_edit :
    Guards 7 none [⟨.id, (5 : Int)⟩, ⟨.maxRetries, (3 : Int)⟩] editedTables
      (updateJobMetadataAndParameters
        ⟨some [⟨.id, (5 : Int)⟩, ⟨.maxRetries, (3 : Int)⟩], some ⟨[(0, some [])], by decide⟩, 7,
          none⟩ editedTables sqlite) := by
  have bare : ∀ given ∈ some (⟨[(0, some [])], by decide⟩ :
      Dictionary Int (Option (List (Assignment ParamColumn)))),
      ∀ entry ∈ given.entries, entry.2 = some [] := by
    intro given present entry member
    obtain rfl := Option.mem_some_iff.mp present
    rw [List.mem_singleton.mp member]
  exact (guarded_updates_iff sqlite [⟨.id, (5 : Int)⟩, ⟨.maxRetries, (3 : Int)⟩] (editedObject 7) 7
    none bare editedTables).2.2.mpr fun _ => by decide

/-- No row has the guid, and the update is reported as done; the row is there, and an update
with nothing to set is reported as refused. -/
theorem guarded_updates_differ :
    ¬ Guards 8 none (fullSetters (editedObject 8)) editedTables
      (updateJobMetadataFull (editedObject 8) none editedTables) ∧
    ¬ Guards 7 (some "New") [] editedTables
      (updateJobMetadataValues [] 7 (some "New") editedTables) ∧
    (updateJobMetadataAndParameters ⟨some [], none, 7, some "New"⟩ editedTables).2 = .ok true := by
  refine ⟨?_, ?_, rfl⟩
  · rintro ⟨queue, able, same, honest, _⟩
    have done : Except.ok true = Except.ok able := congrArg Prod.snd same
    obtain ⟨q, member, chosen⟩ := honest.mp (Except.ok.inj done).symm
    rw [List.mem_singleton.mp member] at chosen
    exact absurd chosen (by decide)
  · rintro ⟨queue, able, same, honest, _⟩
    have refused : Except.ok false = Except.ok able := congrArg Prod.snd same
    have found := honest.mpr ⟨_, List.mem_cons_self, by decide⟩
    rw [found] at refused
    cases refused

end OddJob.Sql
