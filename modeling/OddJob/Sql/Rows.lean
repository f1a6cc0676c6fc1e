import OddJob.Sql.Store

/-! What the columns of a row say about each other, whoever wrote them last. -/

namespace OddJob.Sql

open Linq

/-- The row has a status the program writes, and the dates that go with it. -/
structure Tidy (row : SqlCommonDbOddJobMetaData) : Prop where
  named : ∀ text, row.status ≠ .other text
  claimed : row.lockClaimTime ≠ none → row.status = .new ∨ row.status = .retry
  attempted : row.status = .retry → row.lastAttempt ≠ none

theorem tidy_getMetaDataForJob (jobData : SerializableOddJob) (id : Int) (now : Ticks) :
    Tidy (getMetaDataForJob jobData id now) where
  named _ same := by cases same
  claimed locked := absurd rfl locked
  attempted waiting := by cases waiting

theorem tidy_publish (row : SqlCommonDbOddJobMetaData) : Tidy { row with status := .new } where
  named _ same := by cases same
  claimed _ := .inl rfl
  attempted waiting := by cases waiting

theorem tidy_mark (mark : Mark) (now : Ticks) (row : SqlCommonDbOddJobMetaData) :
    Tidy (mark.set now row) where
  named text same := by cases mark <;> cases same
  claimed locked := absurd (mark.set_lockClaimTime now row) locked
  attempted waiting := by
    cases mark with
    | markJobInRetryAndIncrement lastAttempt => exact Option.some_ne_none now
    | _ => cases waiting

theorem Tidy.claim {Key : Type} {row : SqlCommonDbOddJobMetaData} (valid : Tidy row)
    {call : Claim Key} (eligible : call.eligible row = true) :
    Tidy { row with lockGuid := some call.lockGuid, lockClaimTime := some call.lockTime } where
  named := valid.named
  claimed _ := by
    simp only [Claim.eligible, Sql.eligible, Bool.and_eq_true, Bool.or_eq_true,
      decide_eq_true_eq] at eligible
    exact eligible.1.2.imp_right fun retry => retry.1.1
  attempted := valid.attempted

private theorem tidy_updateWhere {queue : List SqlCommonDbOddJobMetaData}
    {selected : SqlCommonDbOddJobMetaData → Bool}
    {set : SqlCommonDbOddJobMetaData → SqlCommonDbOddJobMetaData}
    (valid : ∀ row ∈ queue, Tidy row)
    (changed : ∀ row ∈ queue, selected row = true → Tidy (set row)) :
    ∀ row ∈ updateWhere selected set queue, Tidy row := by
  intro row member
  obtain ⟨old, present, rfl⟩ := mem_updateWhere.mp member
  split
  · rename_i chosen
    exact changed old present chosen
  · exact valid old present

namespace Store

variable {Key : Type} [LinearOrder Key] {store : Store}

def Tidy (store : Store) : Prop := ∀ row ∈ store.tables.queue, Sql.Tidy row

namespace Tidy

omit [LinearOrder Key] in
theorem insert (valid : Tidy store) (jobData : SerializableOddJob) (now : Ticks) :
    Tidy (store.insert jobData now) := by
  intro row member
  rcases List.mem_append.mp member with older | newer
  · exact valid row older
  · rw [List.mem_singleton.mp newer]
    exact tidy_getMetaDataForJob jobData store.tables.nextId now

theorem proceed (valid : Tidy store) (insertion : Insertion) : Tidy (store.proceed insertion) := by
  unfold Store.proceed
  split
  · intro row member
    exact valid row (by simpa using member)
  · intro row member
    exact valid row (by simpa using member)
  · exact tidy_updateWhere valid fun row _ _ => tidy_publish row
  · exact valid

theorem mark (valid : Tidy store) (mark : Mark) (jobId : Guid) (now : Ticks) :
    Tidy (store.mark mark jobId now) := by
  rw [Store.mark, mark.apply_eq]
  exact tidy_updateWhere valid fun row _ _ => tidy_mark mark now row

theorem claim (valid : Tidy store) (sound : Valid store) {call : Claim Key}
    {scan : List SqlCommonDbOddJobMetaData} (order : scan.Perm store.tables.queue) :
    Tidy (store.claim call scan) :=
  tidy_updateWhere valid fun row member taken =>
    (valid row member).claim (call.eligible_of_takes order sound.rowIds member taken)

end Tidy

omit [LinearOrder Key]

/-- The insert of a job is remembered as long as the store is. -/
theorem jobData_proceed {insertion : Insertion} (moved : Insertion)
    (known : insertion ∈ store.insertions) :
    ∃ later ∈ (store.proceed moved).insertions, later.jobData = insertion.jobData := by
  have moves (point : Point) :
      ∃ later ∈ reach store.insertions moved.jobData.jobId point,
        later.jobData = insertion.jobData := by
    refine ⟨_, mem_updateWhere.mpr ⟨insertion, known, rfl⟩, ?_⟩
    split <;> rfl
  unfold Store.proceed
  split
  · exact moves .paramsCopied
  · exact moves .genericsCopied
  · exact moves .published
  · exact ⟨insertion, known, rfl⟩

/-- The row says of its job what the insert wrote. -/
structure Written (jobData : SerializableOddJob) (row : SqlCommonDbOddJobMetaData) : Prop where
  typeExecutedOn : row.typeExecutedOn = jobData.typeExecutedOn
  methodName : row.methodName = jobData.methodName
  queueName : row.queueName = jobData.queueName
  executionTime : row.doNotExecuteBefore = jobData.executionTime

/-- Every row has an insert that wrote it. -/
def Faithful (store : Store) : Prop :=
  ∀ row ∈ store.tables.queue, ∃ insertion ∈ store.insertions,
    insertion.jobData.jobId = row.jobGuid ∧ Written insertion.jobData row

/-- A published row is an older one, with its status changed at most. -/
theorem mem_queue_proceed {insertion : Insertion} {row : SqlCommonDbOddJobMetaData}
    (member : row ∈ (store.proceed insertion).tables.queue) :
    ∃ old ∈ store.tables.queue, row = old ∨ row = { old with status := .new } := by
  unfold Store.proceed at member
  split at member
  · exact ⟨row, by simpa using member, .inl rfl⟩
  · exact ⟨row, by simpa using member, .inl rfl⟩
  · obtain ⟨old, present, rfl⟩ := mem_updateWhere.mp member
    refine ⟨old, present, ?_⟩
    split
    · exact .inr rfl
    · exact .inl rfl
  · exact ⟨row, member, .inl rfl⟩

namespace Faithful

private theorem update {selected : SqlCommonDbOddJobMetaData → Bool}
    {set : SqlCommonDbOddJobMetaData → SqlCommonDbOddJobMetaData} (valid : Faithful store)
    (guid : ∀ row, (set row).jobGuid = row.jobGuid)
    (kept : ∀ jobData row, Written jobData row → Written jobData (set row)) :
    Faithful { store with tables :=
      { store.tables with queue := updateWhere selected set store.tables.queue } } := by
  intro row member
  obtain ⟨old, present, rfl⟩ := mem_updateWhere.mp member
  obtain ⟨insertion, known, same, written⟩ := valid old present
  refine ⟨insertion, known, ?_⟩
  split
  · exact ⟨same.trans (guid old).symm, kept _ old written⟩
  · exact ⟨same, written⟩

theorem insert (valid : Faithful store) (jobData : SerializableOddJob) (now : Ticks) :
    Faithful (store.insert jobData now) := by
  intro row member
  rcases List.mem_append.mp member with older | newer
  · obtain ⟨insertion, known, same⟩ := valid row older
    exact ⟨insertion, List.mem_append_left _ known, same⟩
  · rw [List.mem_singleton.mp newer]
    exact ⟨_, List.mem_append_right _ List.mem_cons_self, rfl, rfl, rfl, rfl, rfl⟩

theorem proceed (valid : Faithful store) (insertion : Insertion) :
    Faithful (store.proceed insertion) := by
  intro row member
  obtain ⟨old, present, changed⟩ := mem_queue_proceed member
  obtain ⟨other, known, same, written⟩ := valid old present
  obtain ⟨later, still, equal⟩ := jobData_proceed insertion known
  refine ⟨later, still, ?_⟩
  rw [equal]
  rcases changed with rfl | rfl
  · exact ⟨same, written⟩
  · exact ⟨same, written.typeExecutedOn, written.methodName, written.queueName,
      written.executionTime⟩

theorem mark (valid : Faithful store) (mark : Mark) (jobId : Guid) (now : Ticks) :
    Faithful (store.mark mark jobId now) := by
  rw [Store.mark, mark.apply_eq]
  refine valid.update (by simp) fun jobData row written => ?_
  cases mark <;>
    exact ⟨written.typeExecutedOn, written.methodName, written.queueName, written.executionTime⟩

theorem claim [LinearOrder Key] (valid : Faithful store) (call : Claim Key)
    (scan : List SqlCommonDbOddJobMetaData) : Faithful (store.claim call scan) :=
  valid.update (fun _ => rfl) fun _ _ written =>
    ⟨written.typeExecutedOn, written.methodName, written.queueName, written.executionTime⟩

end Faithful

end Store

end OddJob.Sql
