import OddJob.FileSystem.Store
import Mathlib.Data.List.Induction

/-! Operations one after another on one list: which jobs the list has in the end, what
became of each of them, and why a job is not fetched twice. -/

namespace OddJob.FileSystem

variable {CliType Value : Type}

/-- Operations in the order in which they ran, and what each returned or threw. -/
abbrev Log (CliType Value : Type) :=
  List (Operation CliType Value × Except ClrException (List (FileSystemJobMetaData CliType Value)))

/-- The operations that returned, applied one after another. One that threw has left the
list as it was. -/
inductive Ran (start : List (FileSystemJobMetaData CliType Value)) :
    Log CliType Value → List (FileSystemJobMetaData CliType Value) → Prop where
  | nil : Ran start [] start
  | threw {ran : Log CliType Value} {jobs : List (FileSystemJobMetaData CliType Value)}
      (operation : Operation CliType Value) (thrown : ClrException) (earlier : Ran start ran jobs) :
      Ran start (ran ++ [(operation, .error thrown)]) jobs
  | returned {ran : Log CliType Value}
      {jobs changed results returned : List (FileSystemJobMetaData CliType Value)}
      {operation : Operation CliType Value} (earlier : Ran start ran jobs)
      (done : operation.run jobs = .ok (changed, returned))
      (same : List.Forall₂ SameEntry results returned) :
      Ran start (ran ++ [(operation, .ok results)]) changed

/-- What one operation with its outcome does to an entry. -/
def Entry.next (e : Entry) (step : Operation CliType Value ×
    Except ClrException (List (FileSystemJobMetaData CliType Value))) : Entry :=
  match step.2 with
  | .ok results => e.after step.1 (results.map FileSystemJobMetaData.jobId)
  | .error _ => e

/-- The marks and fetches that name the job of an entry, applied to it in order. -/
def Entry.replay (e : Entry) (log : Log CliType Value) : Entry := log.foldl Entry.next e

/-- The entry that a step adds. -/
def addedBy (step : Operation CliType Value ×
    Except ClrException (List (FileSystemJobMetaData CliType Value))) : Option Entry :=
  match step.2 with
  | .ok _ => step.1.added
  | .error _ => none

/-- The entries that a log adds, each with what became of it. -/
def addedEntries : Log CliType Value → List Entry
  | [] => []
  | step :: later => ((addedBy step).map fun e => e.replay later).toList ++ addedEntries later

@[simp] theorem Entry.next_jobId (e : Entry) (step : Operation CliType Value ×
    Except ClrException (List (FileSystemJobMetaData CliType Value))) :
    (e.next step).jobId = e.jobId := by
  unfold Entry.next
  split
  · exact e.after_jobId _ _
  · rfl

@[simp] theorem Entry.replay_jobId (e : Entry) (log : Log CliType Value) :
    (e.replay log).jobId = e.jobId := by
  induction log generalizing e with
  | nil => rfl
  | cons step later ih => rw [replay, List.foldl_cons, ← replay, ih, e.next_jobId]

theorem Entry.replay_snoc (e : Entry) (log : Log CliType Value)
    (step : Operation CliType Value ×
      Except ClrException (List (FileSystemJobMetaData CliType Value))) :
    e.replay (log ++ [step]) = (e.replay log).next step := by
  rw [replay, List.foldl_append]
  rfl

theorem addedEntries_snoc (log : Log CliType Value) (step : Operation CliType Value ×
    Except ClrException (List (FileSystemJobMetaData CliType Value))) :
    addedEntries (log ++ [step]) =
      ((addedEntries log).map fun e => e.next step) ++ (addedBy step).toList := by
  induction log with
  | nil =>
    simp only [addedEntries, List.nil_append, List.append_nil, List.map_nil]
    cases addedBy step <;> rfl
  | cons first later ih =>
    rw [List.cons_append, addedEntries, addedEntries, ih, List.map_append, List.append_assoc]
    congr 1
    cases addedBy first with
    | none => rfl
    | some e => simp [e.replay_snoc]

/-- The ids of the jobs that a log adds. -/
def addedIds (log : Log CliType Value) : List Guid := log.filterMap fun step =>
  (addedBy step).map Entry.jobId

theorem addedEntries_jobId (log : Log CliType Value) :
    (addedEntries log).map Entry.jobId = addedIds log := by
  induction log with
  | nil => rfl
  | cons step later ih =>
    rw [addedEntries, List.map_append, ih]
    cases added : addedBy step with
    | none => simp [addedIds, added]
    | some e => simp [addedIds, added]

namespace Ran

variable {start jobs : List (FileSystemJobMetaData CliType Value)} {log : Log CliType Value}

/-- The ids that the jobs of the list must have to tell them apart. -/
def Distinct (start : List (FileSystemJobMetaData CliType Value)) (log : Log CliType Value) : Prop :=
  (start.map FileSystemJobMetaData.jobId ++ addedIds log).Nodup

theorem Distinct.of_append {later : Log CliType Value} (distinct : Distinct start (log ++ later)) :
    Distinct start log := by
  refine List.Nodup.sublist ?_ distinct
  rw [addedIds, addedIds, List.filterMap_append, ← List.append_assoc]
  exact List.sublist_append_left _ _

private theorem ids_of_entries
    (entries : jobs.map FileSystemJobMetaData.entry =
      start.map (fun q => q.entry.replay log) ++ addedEntries log) :
    jobs.map FileSystemJobMetaData.jobId =
      start.map FileSystemJobMetaData.jobId ++ addedIds log := by
  have ids := congrArg (List.map Entry.jobId) entries
  rw [List.map_append, addedEntries_jobId, List.map_map, List.map_map] at ids
  simp only [Function.comp_def, Entry.replay_jobId] at ids
  exact ids

/-- The list has the jobs it had and those that were added, in this order, and each is as
the marks and fetches since have left it. -/
theorem entries (ran : Ran start log jobs) (distinct : Distinct start log) :
    jobs.map FileSystemJobMetaData.entry =
      start.map (fun q => q.entry.replay log) ++ addedEntries log := by
  induction ran with
  | nil => exact (List.append_nil _).symm
  | @threw ran jobs operation thrown earlier ih =>
    rw [ih distinct.of_append, addedEntries_snoc]
    simp only [Entry.replay_snoc]
    simp [Entry.next, addedBy]
  | @returned ran jobs changed results returned operation earlier done same ih =>
    have before := ih distinct.of_append
    have apart : (jobs.map FileSystemJobMetaData.jobId).Nodup := by
      rw [ids_of_entries before]
      exact distinct.of_append
    have ids : returned.map FileSystemJobMetaData.jobId =
        results.map FileSystemJobMetaData.jobId := by
      have entries := congrArg (List.map Entry.jobId) (forall₂_sameEntry.mp same)
      rw [List.map_map, List.map_map] at entries
      exact entries.symm
    have rewritten := operation.entries_run apart done
    have spread : (jobs.map fun q => q.entry.after operation
        (returned.map FileSystemJobMetaData.jobId)) =
        (jobs.map FileSystemJobMetaData.entry).map fun e => e.next (operation, .ok results) := by
      rw [List.map_map, ids]
      rfl
    rw [rewritten, spread, before, addedEntries_snoc, List.map_append, List.append_assoc,
      List.map_map]
    simp only [Function.comp_def, Entry.replay_snoc]
    rfl

theorem ids (ran : Ran start log jobs) (distinct : Distinct start log) :
    jobs.map FileSystemJobMetaData.jobId =
      start.map FileSystemJobMetaData.jobId ++ addedIds log :=
  ids_of_entries (ran.entries distinct)

theorem split {later : Log CliType Value} (ran : Ran start (log ++ later) jobs) :
    ∃ between, Ran start log between ∧ Ran between later jobs := by
  induction later using List.reverseRecOn generalizing jobs with
  | nil => exact ⟨jobs, by rwa [List.append_nil] at ran, .nil⟩
  | append_singleton later step ih =>
    rw [← List.append_assoc] at ran
    generalize whole : log ++ later ++ [step] = all at ran
    cases ran with
    | nil => simp at whole
    | threw operation thrown earlier =>
      obtain ⟨rfl, rfl⟩ := List.append_singleton_inj.mp whole
      obtain ⟨between, first, second⟩ := ih earlier
      exact ⟨between, first, .threw operation thrown second⟩
    | returned earlier done same =>
      obtain ⟨rfl, rfl⟩ := List.append_singleton_inj.mp whole
      obtain ⟨between, first, second⟩ := ih earlier
      exact ⟨between, first, .returned second done same⟩

/-- What comes later tells its jobs from those that are there by then. -/
theorem Distinct.later {later : Log CliType Value} {between : List (FileSystemJobMetaData CliType Value)}
    (distinct : Distinct start (log ++ later)) (ran : Ran start log between) :
    Distinct between later := by
  rw [Distinct, ran.ids distinct.of_append]
  rwa [Distinct, addedIds, List.filterMap_append, ← List.append_assoc] at distinct

/-- The job was marked for another attempt. -/
def Retried (jobId : Guid) (log : Log CliType Value) : Prop :=
  ∃ lastAttempt now results,
    (.mark (.markJobInRetryAndIncrement lastAttempt) jobId now, .ok results) ∈ log

theorem next_settled {e : Entry} {step : Operation CliType Value ×
      Except ClrException (List (FileSystemJobMetaData CliType Value))}
    (settled : e.status ≠ .new ∧ e.status ≠ .retry) (unmarked : ¬Retried e.jobId [step]) :
    (e.next step).status ≠ .new ∧ (e.next step).status ≠ .retry := by
  obtain ⟨operation, outcome⟩ := step
  cases outcome with
  | error thrown => exact settled
  | ok results =>
    simp only [Entry.next]
    cases operation with
    | getJobs queueNames fetchSize now queueTime =>
      simp only [Entry.after]
      split
      · simp
      · exact settled
    | mark kind jobId now =>
      simp only [Entry.after]
      split
      · rename_i own
        cases kind with
        | markJobInRetryAndIncrement lastAttempt =>
          exact absurd ⟨lastAttempt, now, results, own ▸ List.mem_cons_self⟩ unmarked
        | _ => simp [Entry.marked]
      · exact settled
    | _ => exact settled

theorem replay_settled {e : Entry} (settled : e.status ≠ .new ∧ e.status ≠ .retry)
    (unmarked : ¬Retried e.jobId log) :
    (e.replay log).status ≠ .new ∧ (e.replay log).status ≠ .retry := by
  induction log generalizing e with
  | nil => exact settled
  | cons step later ih =>
    rw [Entry.replay, List.foldl_cons, ← Entry.replay]
    apply ih
    · apply next_settled settled
      rintro ⟨lastAttempt, now, results, member⟩
      exact unmarked ⟨lastAttempt, now, results, List.mem_cons.mpr (.inl (by simpa using member))⟩
    · rw [e.next_jobId]
      rintro ⟨lastAttempt, now, results, member⟩
      exact unmarked ⟨lastAttempt, now, results, List.mem_cons_of_mem step member⟩

theorem fetched {operation : Operation CliType Value}
    {results : List (FileSystemJobMetaData CliType Value)} {jobId : Guid}
    (ran : Ran start (log ++ [(operation, .ok results)]) jobs)
    (distinct : Distinct start log) (fetch : operation.fetches = true)
    (member : jobId ∈ results.map FileSystemJobMetaData.jobId) :
    (∃ before, Ran start log before ∧
      ∃ q ∈ before, q.jobId = jobId ∧ (q.status = .new ∨ q.status = .retry)) ∧
    ∃ q ∈ jobs, q.jobId = jobId ∧ q.status = .other "Queued" := by
  generalize whole : log ++ [(operation, Except.ok results)] = all at ran
  cases ran with
  | nil => simp at whole
  | threw other thrown earlier =>
    obtain ⟨_, same⟩ := List.append_singleton_inj.mp whole
    cases same
  | @returned _ before _ _ returned _ earlier done alike =>
    obtain ⟨rfl, same⟩ := List.append_singleton_inj.mp whole
    cases same
    have apart : (before.map FileSystemJobMetaData.jobId).Nodup := by
      rw [earlier.ids distinct]
      exact distinct
    have ids : jobId ∈ returned.map FileSystemJobMetaData.jobId := by
      have entries := congrArg (List.map Entry.jobId) (forall₂_sameEntry.mp alike)
      rw [List.map_map, List.map_map] at entries
      exact entries ▸ member
    cases operation with
    | getJobs queueNames fetchSize now queueTime =>
      obtain ⟨q, present, own, waiting⟩ := (returned_getJobs apart done).2 jobId ids
      refine ⟨⟨before, earlier, q, present, own, waiting⟩, ?_⟩
      have rewritten : ({ q.entry with status := .other "Queued" } : Entry) ∈
          jobs.map FileSystemJobMetaData.entry := by
        rw [entries_getJobs apart done]
        exact List.mem_map.mpr ⟨q, present, if_pos (own.symm ▸ ids)⟩
      obtain ⟨after, kept, same⟩ := List.mem_map.mp rewritten
      exact ⟨after, kept, (congrArg Entry.jobId same).trans own, congrArg Entry.status same⟩
    | _ => cases fetch

/-- A job that two fetches return was marked for another attempt in between. -/
theorem fetched_again {earlier between later : Log CliType Value}
    {first second : Operation CliType Value}
    {results results' : List (FileSystemJobMetaData CliType Value)} {jobId : Guid}
    (ran : Ran start (earlier ++ (first, .ok results) :: between ++ (second, .ok results') :: later)
      jobs)
    (distinct : Distinct start
      (earlier ++ (first, .ok results) :: between ++ (second, .ok results') :: later))
    (fetch : first.fetches = true) (again : second.fetches = true)
    (returned : jobId ∈ results.map FileSystemJobMetaData.jobId)
    (returned' : jobId ∈ results'.map FileSystemJobMetaData.jobId) : Retried jobId between := by
  have cut : earlier ++ (first, .ok results) :: between ++ (second, .ok results') :: later =
      (earlier ++ [(first, .ok results)]) ++ ((between ++ [(second, .ok results')]) ++ later) := by
    simp
  rw [cut] at ran distinct
  obtain ⟨middle, before, after⟩ := ran.split
  obtain ⟨last, toSecond, _⟩ := after.split
  have apart := distinct.later before
  obtain ⟨_, q, present, own, queued⟩ :=
    before.fetched distinct.of_append.of_append fetch returned
  obtain ⟨⟨found, toFound, q', present', own', waiting⟩, _⟩ :=
    toSecond.fetched apart.of_append.of_append again returned'
  have known : q'.entry ∈ found.map FileSystemJobMetaData.entry := List.mem_map_of_mem present'
  rw [toFound.entries apart.of_append.of_append] at known
  have ids : (middle.map FileSystemJobMetaData.jobId).Nodup := by
    exact (List.nodup_append.mp apart).1
  rcases List.mem_append.mp known with older | newer
  · obtain ⟨old, kept, same⟩ := List.mem_map.mp older
    obtain rfl : old = q := by
      have id := congrArg Entry.jobId same
      rw [Entry.replay_jobId] at id
      exact List.inj_on_of_nodup_map ids kept present (id.trans (own'.trans own.symm))
    by_contra unmarked
    have settled : old.entry.status ≠ .new ∧ old.entry.status ≠ .retry := by
      have status : old.entry.status = .other "Queued" := queued
      simp [status]
    obtain ⟨notNew, notRetry⟩ := replay_settled settled (own.symm ▸ unmarked)
    rw [same] at notNew notRetry
    exact waiting.elim notNew notRetry
  · -- the job was there already, so it was not added in between
    have added : jobId ∈ addedIds between := by
      rw [← addedEntries_jobId, ← own']
      exact List.mem_map.mpr ⟨_, newer, rfl⟩
    have disjoint := (List.nodup_append.mp apart.of_append.of_append).2.2
    exact absurd rfl (disjoint jobId (List.mem_map.mpr ⟨q, present, own⟩) jobId added)

end Ran

end OddJob.FileSystem
