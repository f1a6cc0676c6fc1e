import OddJob.FileSystem.History
import OddJob.Lib.Codec
import OddJob.Lib.Exclusive

/-! Any number of processes that keep their queue in one file. Each operation opens the
file for itself alone, tries again while another has it open, and rewrites the whole list. -/

namespace OddJob.FileSystem

open Linq Transition Exclusive

variable {CliType Value : Type}

/-- `JsonConvert` behind `Encoding.UTF8`; `none` is the null value. -/
structure Json (CliType Value : Type) where
  serializeObject : List (FileSystemJobMetaData CliType Value) → Except ClrException (List UInt8)
  deserializeObject : List UInt8 →
    Except ClrException (Option (List (FileSystemJobMetaData CliType Value)))

/-- What comes back of a list that was written: the members that the store reads. -/
structure Json.Preserves (json : Json CliType Value) : Prop where
  empty : json.deserializeObject [] = .ok none
  entries : ∀ jobs toWrite, json.serializeObject jobs = .ok toWrite → ∃ stored,
    json.deserializeObject toWrite = .ok (some stored) ∧ List.Forall₂ SameEntry stored jobs

/-- The file has this list, up to members that the store does not read. -/
def Json.Holds (json : Json CliType Value) (file : Option (List UInt8))
    (jobs : List (FileSystemJobMetaData CliType Value)) : Prop :=
  match file with
  | none | some [] => jobs = []
  | some toRead => ∃ stored, json.deserializeObject toRead = .ok (some stored) ∧
      List.Forall₂ SameEntry stored jobs

inductive FileMode where
  | openExisting
  | openOrCreate
  deriving DecidableEq, Repr

/-- What an operation returns or throws. -/
abbrev Outcome (CliType Value : Type) :=
  Except ClrException (List (FileSystemJobMetaData CliType Value))

namespace Operation

def fileMode : Operation CliType Value → FileMode
  | .writeJobToQueue _ => .openOrCreate
  | _ => .openExisting

/-- The list an operation starts from. An adder takes an empty file for an empty list. -/
def read (operation : Operation CliType Value) (json : Json CliType Value) (toRead : List UInt8) :
    Except ClrException (List (FileSystemJobMetaData CliType Value)) :=
  match operation with
  | .writeJobToQueue _ =>
    if toRead.length > 0 then do
      match ← json.deserializeObject toRead with
      | none => .error .nullReference
      | some serializedData => .ok serializedData
    else .ok []
  | _ => do
    match ← json.deserializeObject toRead with
    | none => .error .argumentNull
    | some serializer => .ok serializer

/-- All that an operation does between its read and its write. -/
def transform (operation : Operation CliType Value) (json : Json CliType Value)
    (toRead : List UInt8) : Except ClrException
      (Option (List UInt8) × List (FileSystemJobMetaData CliType Value)) := do
  let serializer ← operation.read json toRead
  let (serializer, results) ← operation.run serializer
  if operation.writes then
    let toWrite ← json.serializeObject serializer
    return (some toWrite, results)
  else return (none, results)

/-- One operation with the file to itself. -/
def perform (operation : Operation CliType Value) (json : Json CliType Value)
    (file : Option (List UInt8)) : Option (List UInt8) × Outcome CliType Value :=
  if operation.fileMode = .openExisting ∧ file = none then (none, .error .fileNotFound)
  else
    let toRead := file.getD []
    match operation.transform json toRead with
    | .error thrown => (some toRead, .error thrown)
    | .ok (toWrite, results) => (some (toWrite.getD toRead), .ok results)

end Operation

/-- `FileStream.SetLength` -/
def setLength (length : Nat) (content : List UInt8) : List UInt8 :=
  content.take length ++ List.replicate (length - content.length) 0

/-- `FileStream.Write` at position 0 -/
def write (toWrite content : List UInt8) : List UInt8 :=
  toWrite ++ content.drop toWrite.length

theorem write_setLength (toWrite content : List UInt8) :
    write toWrite (setLength toWrite.length content) = toWrite := by
  have length : (setLength toWrite.length content).length = toWrite.length := by
    simp only [setLength, List.length_append, List.length_take, List.length_replicate]
    omega
  rw [write, List.drop_eq_nil_of_le length.le, List.append_nil]

/-- How far the operation has come that has the file open. -/
inductive Point (CliType Value : Type) where
  | opened (operation : Operation CliType Value)
  | read (operation : Operation CliType Value) (toRead : List UInt8)
  | transformed (toWrite : List UInt8) (results : List (FileSystemJobMetaData CliType Value))
  | resized (toWrite : List UInt8) (results : List (FileSystemJobMetaData CliType Value))
  | written (results : List (FileSystemJobMetaData CliType Value))

/-- The `using` block of an operation. The file is closed when the block is left. -/
def code (json : Json CliType Value) :
    Code (Operation CliType Value) (Option (List UInt8)) (Point CliType Value)
      (Outcome CliType Value) where
  enter operation file :=
    if operation.fileMode = .openExisting ∧ file = none then .error (.error .fileNotFound)
    else .ok (some (file.getD []), .opened operation)
  step point file :=
    match point with
    | .opened operation => (file, .inl (.read operation (file.getD [])))
    | .read operation toRead =>
      match operation.transform json toRead with
      | .error thrown => (file, .inr (.error thrown))
      | .ok (none, results) => (file, .inr (.ok results))
      | .ok (some toWrite, results) => (file, .inl (.transformed toWrite results))
    | .transformed toWrite results =>
      (file.map (setLength toWrite.length), .inl (.resized toWrite results))
    | .resized toWrite results => (file.map (write toWrite), .inl (.written results))
    | .written results => (file, .inr (.ok results))

section Perform

variable {json : Json CliType Value} {operation : Operation CliType Value}
  {before file after : Option (List UInt8)}

/-- What is known of an operation that found the file as it was `before`. -/
def Course (json : Json CliType Value) (operation : Operation CliType Value)
    (before file : Option (List UInt8)) : Point CliType Value → Prop
  | .opened own => own = operation ∧ file = some (before.getD [])
  | .read own toRead => own = operation ∧ file = some (before.getD []) ∧ toRead = before.getD []
  | .transformed toWrite results => file = some (before.getD []) ∧
      operation.transform json (before.getD []) = .ok (some toWrite, results)
  | .resized toWrite results => file = some (setLength toWrite.length (before.getD [])) ∧
      operation.transform json (before.getD []) = .ok (some toWrite, results)
  | .written results => ∃ toWrite, file = some toWrite ∧
      operation.transform json (before.getD []) = .ok (some toWrite, results)

theorem course_of_inside {point : Point CliType Value}
    (inside : Inside (code json) operation before file point) :
    ¬(operation.fileMode = .openExisting ∧ before = none) ∧
      Course json operation before file point := by
  induction inside with
  | entered opened =>
    simp only [code] at opened
    split at opened
    · cases opened
    · rename_i present
      cases opened
      exact ⟨present, rfl, rfl⟩
  | @moved file next here there _ taken ih =>
    obtain ⟨present, course⟩ := ih
    refine ⟨present, ?_⟩
    cases here with
    | opened own =>
      obtain ⟨rfl, rfl⟩ := course
      cases taken
      exact ⟨rfl, rfl, rfl⟩
    | read own toRead =>
      obtain ⟨rfl, rfl, rfl⟩ := course
      simp only [code] at taken
      split at taken
      · cases taken
      · cases taken
      · rename_i toWrite results transformed
        cases taken
        exact ⟨rfl, transformed⟩
    | transformed toWrite results =>
      obtain ⟨rfl, transformed⟩ := course
      cases taken
      exact ⟨rfl, transformed⟩
    | resized toWrite results =>
      obtain ⟨rfl, transformed⟩ := course
      cases taken
      exact ⟨toWrite, congrArg some (write_setLength toWrite _), transformed⟩
    | written results => cases taken

/-- The steps of an operation amount to the operation. -/
theorem perform_of_completes {outcome : Outcome CliType Value}
    (completes : Completes (code json) operation before outcome after) :
    operation.perform json before = (after, outcome) := by
  cases completes with
  | refused closed =>
    simp only [code] at closed
    split at closed
    · rename_i missing
      cases closed
      rw [Operation.perform, if_pos missing, missing.2]
    · cases closed
  | @left file _ here _ inside taken =>
    obtain ⟨present, course⟩ := course_of_inside inside
    rw [Operation.perform, if_neg present]
    cases here with
    | read own toRead =>
      obtain ⟨rfl, rfl, rfl⟩ := course
      simp only [code] at taken
      split at taken
      · rename_i thrown transformed
        cases taken
        simp only [transformed]
      · rename_i results transformed
        cases taken
        simp only [transformed, Option.getD_none]
      · cases taken
    | written results =>
      obtain ⟨toWrite, rfl, transformed⟩ := course
      cases taken
      simp only [transformed, Option.getD_some]
    | _ => cases taken

end Perform

section Holds

variable {json : Json CliType Value} {operation : Operation CliType Value}
  {file after : Option (List UInt8)}
  {jobs stored results : List (FileSystemJobMetaData CliType Value)}

theorem Json.Preserves.holds (preserves : json.Preserves) {toWrite : List UInt8}
    (written : json.serializeObject stored = .ok toWrite)
    (same : List.Forall₂ SameEntry stored jobs) : json.Holds (some toWrite) jobs := by
  obtain ⟨again, decoded, kept⟩ := preserves.entries stored toWrite written
  cases toWrite with
  | nil =>
    rw [preserves.empty] at decoded
    cases decoded
  | cons byte rest =>
    refine ⟨again, decoded, ?_⟩
    rw [forall₂_sameEntry] at kept same ⊢
    exact kept.trans same

theorem Json.Holds.create (holds : json.Holds file jobs) : json.Holds (some (file.getD [])) jobs := by
  cases file with
  | none => exact holds
  | some content => exact holds

theorem Operation.read_eq_ok {toRead : List UInt8}
    (done : operation.read json toRead = .ok stored) :
    toRead = [] ∧ stored = [] ∨ json.deserializeObject toRead = .ok (some stored) := by
  have decoded {thrown : ClrException}
      (loaded : (do match ← json.deserializeObject toRead with
        | none => .error thrown
        | some list => .ok list) = .ok stored) :
      json.deserializeObject toRead = .ok (some stored) := by
    cases found : json.deserializeObject toRead with
    | error refused => rw [found] at loaded; cases loaded
    | ok value =>
      rw [found] at loaded
      cases value with
      | none => cases loaded
      | some list => cases loaded; rfl
  cases operation with
  | writeJobToQueue data =>
    simp only [Operation.read] at done
    split at done
    · exact .inr (decoded done)
    · rename_i empty
      cases done
      exact .inl ⟨List.eq_nil_of_length_eq_zero (Nat.eq_zero_of_not_pos empty), rfl⟩
  | _ => exact .inr (decoded done)

theorem Json.Holds.read (preserves : json.Preserves) (holds : json.Holds file jobs)
    (done : operation.read json (file.getD []) = .ok stored) :
    List.Forall₂ SameEntry stored jobs := by
  rcases operation.read_eq_ok done with ⟨empty, rfl⟩ | decoded
  · have none : jobs = [] := by
      have created := holds.create
      rwa [empty] at created
    rw [none]
    exact .nil
  · cases content : file.getD [] with
    | nil =>
      rw [content, preserves.empty] at decoded
      cases decoded
    | cons byte rest =>
      have created := holds.create
      rw [content] at created decoded
      obtain ⟨list, known, same⟩ := created
      rw [decoded] at known
      cases known
      exact same

theorem Operation.transform_eq_ok {toRead : List UInt8} {toWrite : Option (List UInt8)}
    (done : operation.transform json toRead = .ok (toWrite, results)) :
    ∃ stored changed, operation.read json toRead = .ok stored ∧
      operation.run stored = .ok (changed, results) ∧
      (toWrite = none ∧ operation.writes = false ∨ ∃ bytes, toWrite = some bytes ∧
        operation.writes = true ∧ json.serializeObject changed = .ok bytes) := by
  unfold transform at done
  cases loaded : operation.read json toRead with
  | error thrown => rw [loaded] at done; cases done
  | ok stored =>
    cases ran : operation.run stored with
    | error thrown =>
      simp only [loaded, ran, bind, Except.bind] at done
      cases done
    | ok outcome =>
      obtain ⟨changed, returned⟩ := outcome
      simp only [loaded, ran, bind, Except.bind] at done
      split at done
      · rename_i writing
        cases encoded : json.serializeObject changed with
        | error thrown => rw [encoded] at done; cases done
        | ok bytes =>
          rw [encoded] at done
          cases done
          exact ⟨stored, changed, rfl, ran, .inr ⟨bytes, rfl, writing, encoded⟩⟩
      · rename_i silent
        cases done
        exact ⟨stored, changed, rfl, ran, .inl ⟨rfl, Bool.not_eq_true _ ▸ silent⟩⟩

theorem Operation.run_of_not_writes (silent : operation.writes = false)
    (done : operation.run jobs = .ok (stored, results)) : stored = jobs := by
  cases operation with
  | getJob jobId =>
    cases done
    rfl
  | _ => cases silent

/-- What an operation makes of the file is what it makes of the list in the file. -/
theorem Json.Holds.transform (preserves : json.Preserves) (holds : json.Holds file jobs)
    {toWrite : Option (List UInt8)}
    (done : operation.transform json (file.getD []) = .ok (toWrite, results)) :
    ∃ changed returned, operation.run jobs = .ok (changed, returned) ∧
      json.Holds (some (toWrite.getD (file.getD []))) changed ∧
      List.Forall₂ SameEntry results returned := by
  obtain ⟨stored, written, loaded, ran, encoded⟩ := operation.transform_eq_ok done
  obtain ⟨changed, returned, also, same, alike⟩ :=
    operation.forall₂_run (holds.read preserves loaded) ran
  refine ⟨changed, returned, also, ?_, alike⟩
  rcases encoded with ⟨rfl, silent⟩ | ⟨bytes, rfl, _, encoded⟩
  · rw [operation.run_of_not_writes silent also]
    exact holds.create
  · exact preserves.holds encoded same

variable (operation) in
theorem Json.Holds.perform (preserves : json.Preserves) (holds : json.Holds file jobs) :
    match (operation.perform json file).2 with
    | .error _ => json.Holds (operation.perform json file).1 jobs
    | .ok results => ∃ changed returned, operation.run jobs = .ok (changed, returned) ∧
        json.Holds (operation.perform json file).1 changed ∧
        List.Forall₂ SameEntry results returned := by
  by_cases missing : operation.fileMode = .openExisting ∧ file = none
  · rw [Operation.perform, if_pos missing]
    exact missing.2 ▸ holds
  · rw [Operation.perform, if_neg missing]
    cases transformed : operation.transform json (file.getD []) with
    | error thrown =>
      simp only [transformed]
      exact holds.create
    | ok outcome =>
      simp only [transformed]
      exact holds.transform preserves transformed

end Holds

section Shared

variable {json : Json CliType Value} {file resource : Option (List UInt8)}
  {start : List (FileSystemJobMetaData CliType Value)} {log : Log CliType Value}

theorem ran_of_serial (preserves : json.Preserves) (holds : json.Holds file start)
    (serial : Serial (code json) file log resource) :
    ∃ jobs, Ran start log jobs ∧ json.Holds resource jobs := by
  apply serial.invariant
  · exact ⟨start, .nil, holds⟩
  · intro earlier operation outcome before after known completes
    obtain ⟨jobs, ran, holds⟩ := known
    have performed := holds.perform operation preserves
    rw [perform_of_completes completes] at performed
    cases outcome with
    | error thrown => exact ⟨jobs, .threw operation thrown ran, performed⟩
    | ok results =>
      obtain ⟨changed, returned, done, held, same⟩ := performed
      exact ⟨changed, .returned ran done same, held⟩

/-- The file and the processes that use it. -/
abbrev Processes (CliType Value : Type) :=
  Shared (Operation CliType Value) (Option (List UInt8)) (Point CliType Value)
    (Outcome CliType Value)

/-- The operation that has the file open has put this content into the file, or is about to. -/
def Rewrites (json : Json CliType Value) (processes : Processes CliType Value)
    (jobs results : List (FileSystemJobMetaData CliType Value)) (content : Option (List UInt8)) :
    Prop :=
  ∃ operation changed returned,
    processes.operations.drop processes.outcomes.length = [operation] ∧
    operation.run jobs = .ok (changed, returned) ∧ json.Holds content changed ∧
    List.Forall₂ SameEntry results returned

/-- The file has this list, or what the operation that has it open has made of the list. -/
def Shows (json : Json CliType Value) (processes : Processes CliType Value)
    (jobs : List (FileSystemJobMetaData CliType Value)) : Prop :=
  match processes.inside with
  | some (.resized toWrite results) =>
    Rewrites json processes jobs results (processes.resource.map (write toWrite))
  | some (.written results) => Rewrites json processes jobs results processes.resource
  | _ => json.Holds processes.resource jobs

theorem shows_of_serialized {processes : Processes CliType Value} (preserves : json.Preserves)
    (holds : json.Holds file start) (serialized : Serialized (code json) file processes) :
    ∃ jobs, Ran start processes.finished jobs ∧ Shows json processes jobs := by
  have settled := serialized.settled
  unfold Settled at settled
  cases inside : processes.inside with
  | none =>
    simp only [inside] at settled
    obtain ⟨jobs, ran, held⟩ := ran_of_serial preserves holds settled.2
    exact ⟨jobs, ran, by rwa [Shows, inside]⟩
  | some point =>
    simp only [inside] at settled
    obtain ⟨operation, before, last, serial, course⟩ := settled
    obtain ⟨jobs, ran, held⟩ := ran_of_serial preserves holds serial
    refine ⟨jobs, ran, ?_⟩
    have known := (course_of_inside course).2
    have rewrites {toWrite : List UInt8} {results : List (FileSystemJobMetaData CliType Value)}
        (transformed : operation.transform json (before.getD []) = .ok (some toWrite, results)) :
        Rewrites json processes jobs results (some toWrite) := by
      obtain ⟨changed, returned, done, kept, same⟩ := held.transform preserves transformed
      exact ⟨operation, changed, returned, last, done, kept, same⟩
    rw [Shows, inside]
    cases point with
    | opened own => exact known.2 ▸ held.create
    | read own toRead => exact known.2.1 ▸ held.create
    | transformed toWrite results => exact known.1 ▸ held.create
    | resized toWrite results =>
      obtain ⟨content, transformed⟩ := known
      have rewritten := rewrites transformed
      rwa [← write_setLength toWrite (before.getD []), ← Option.map_some, ← content] at rewritten
    | written results =>
      obtain ⟨toWrite, content, transformed⟩ := known
      have rewritten := rewrites transformed
      rwa [← content] at rewritten

/-- The ids of the jobs that the calls add. -/
def calledIds (called : List (Operation CliType Value)) : List Guid :=
  called.filterMap fun operation => operation.added.map Entry.jobId

private theorem addedIds_sublist (log : Log CliType Value) :
    (addedIds log).Sublist (calledIds (log.map Prod.fst)) := by
  induction log with
  | nil => exact List.Sublist.refl _
  | cons step later ih =>
    obtain ⟨operation, outcome⟩ := step
    simp only [addedIds, calledIds, List.map_cons, List.filterMap_cons] at ih ⊢
    cases outcome with
    | error thrown =>
      simp only [addedBy, Option.map_none]
      cases operation.added with
      | none => exact ih
      | some e => exact ih.cons _
    | ok results =>
      simp only [addedBy]
      cases operation.added with
      | none => exact ih
      | some e => exact ih.cons_cons _

theorem distinct_of_called {processes : Processes CliType Value}
    (serialized : Serialized (code json) file processes)
    (distinct : (start.map FileSystemJobMetaData.jobId ++ calledIds processes.called).Nodup) :
    Ran.Distinct start processes.finished := by
  obtain ⟨ran, permuted, kept⟩ := serialized.finished_subperm
  have fewer : (addedIds processes.finished).Subperm (calledIds processes.called) :=
    (addedIds_sublist _).subperm.trans ⟨calledIds ran, permuted.filterMap _, kept.filterMap _⟩
  obtain ⟨ids, permuted, kept⟩ := fewer
  exact (permuted.append_left _).nodup_iff.mp (distinct.sublist (kept.append_left _))

/-- On any schedule the list in the file is what the operations that returned make of it,
one after another in the order in which they had the file, each once. So no job is lost or
there twice, no mark is lost, and what is fetched again was marked for it in between. -/
theorem file_is_serial {processes : Processes CliType Value} (preserves : json.Preserves)
    (holds : json.Holds file start)
    (reached : Reaches (Exclusive.step (code json)) anyAction { resource := file } processes)
    (distinct : (start.map FileSystemJobMetaData.jobId ++ calledIds processes.called).Nodup) :
    processes.admitted.Nodup ∧ (∀ call ∈ processes.admitted, call < processes.called.length) ∧
    ∃ jobs, Ran start processes.finished jobs ∧ Shows json processes jobs ∧
      jobs.map FileSystemJobMetaData.entry =
        start.map (fun q => q.entry.replay processes.finished) ++
          addedEntries processes.finished ∧
      (jobs.map FileSystemJobMetaData.jobId).Nodup ∧
      ∀ earlier between later first second results results' jobId,
        processes.finished =
          earlier ++ (first, .ok results) :: between ++ (second, .ok results') :: later →
        first.fetches = true → second.fetches = true →
        jobId ∈ results.map FileSystemJobMetaData.jobId →
        jobId ∈ results'.map FileSystemJobMetaData.jobId →
        Ran.Retried jobId between := by
  have serialized := serialized_of_reaches reached
  have apart := distinct_of_called serialized distinct
  obtain ⟨jobs, ran, shown⟩ := shows_of_serialized preserves holds serialized
  refine ⟨serialized.once, serialized.made, jobs, ran, shown, ran.entries apart, ?_, ?_⟩
  · rw [ran.ids apart]
    exact apart
  · intro earlier between later first second results results' jobId whole fetch again member also
    rw [whole] at ran apart
    exact ran.fetched_again apart fetch again member also

end Shared

def sampleJob (e : Entry) : FileSystemJobMetaData String String where
  retryParameters := e.retryParameters
  jobId := e.jobId
  jobArgs := []
  typeExecutedOn := "Jobs.SampleJob, Jobs"
  methodName := "Add"
  queueName := e.queueName
  createdOn := e.createdOn
  status := e.status
  methodGenericTypes := []

def sampleEntry (jobId : Guid) (status : JobStates) (retryParameters : RetryParameters) :
    Entry where
  jobId
  queueName := "default"
  status
  createdOn := 10 * jobId
  retryParameters := some retryParameters

def sampleRetry : RetryParameters where
  maxRetries := 1
  retryCount := 1
  lastAttempt := some 90

section Codecs

def retryParametersCodec : Codec RetryParameters :=
  (Codec.int.prod (Codec.int.prod (Codec.int.prod Codec.int.option))).map
    (fun (maxRetries, minRetryWait, retryCount, lastAttempt) =>
      { maxRetries, minRetryWait, retryCount, lastAttempt })
    (fun q => (q.maxRetries, q.minRetryWait, q.retryCount, q.lastAttempt)) fun _ => rfl

def statusCodec : Codec JobStates :=
  (Codec.nat.prod Codec.string).map
    (fun
      | (0, _) => .processed
      | (1, _) => .new
      | (2, _) => .failed
      | (3, _) => .retry
      | (4, _) => .inProgress
      | (5, _) => .inserting
      | (_, text) => .other text)
    (fun
      | .processed => (0, "")
      | .new => (1, "")
      | .failed => (2, "")
      | .retry => (3, "")
      | .inProgress => (4, "")
      | .inserting => (5, "")
      | .other text => (6, text))
    fun status => by cases status <;> rfl

def parameterCodec : Codec (OddJobParameter String) :=
  (Codec.string.option.prod (Codec.string.option.prod Codec.string.option)).map
    (fun (name, value, type) => { name, value, type })
    (fun q => (q.name, q.value, q.type)) fun _ => rfl

/-- The record of a job, whose values and types are texts. -/
def recordCodec : Codec (FileSystemJobMetaData String String) :=
  (retryParametersCodec.option.prod (Codec.nat.prod (parameterCodec.list.prod
    (Codec.string.prod (Codec.string.prod (Codec.string.prod (Codec.int.prod (statusCodec.prod
    (Codec.string.list.prod (Codec.int.prod (Codec.int.prod (Codec.int.prod
    (Codec.int.option.prod Codec.string.option))))))))))))).map
    (fun (retryParameters, jobId, jobArgs, typeExecutedOn, methodName, queueName, createdOn,
        status, methodGenericTypes, queueTime, failureTime, lastAttemptTime, executionTime,
        queue) =>
      { retryParameters, jobId, jobArgs, typeExecutedOn, methodName, queueName, createdOn,
        status, methodGenericTypes, queueTime, failureTime, lastAttemptTime, executionTime,
        queue })
    (fun q => (q.retryParameters, q.jobId, q.jobArgs, q.typeExecutedOn, q.methodName,
      q.queueName, q.createdOn, q.status, q.methodGenericTypes, q.queueTime, q.failureTime,
      q.lastAttemptTime, q.executionTime, q.queue)) fun _ => rfl

end Codecs

def sampleJson : Json String String where
  serializeObject jobs := .ok (91 :: recordCodec.list.write jobs)
  deserializeObject
    | [] => .ok none
    | _ :: text => match recordCodec.list.read text with
      | some (jobs, _) => .ok (some (jobs.map fun q =>
          { q with queueTime := 0, failureTime := 0, lastAttemptTime := 0 }))
      | none => .error (.json "Unexpected character encountered while parsing value")

theorem sampleJson_preserves : sampleJson.Preserves where
  empty := rfl
  entries jobs toWrite written := by
    cases written
    have read := recordCodec.list.read_write jobs []
    rw [List.append_nil] at read
    refine ⟨jobs.map fun q => { q with queueTime := 0, failureTime := 0, lastAttemptTime := 0 },
      ?_, ?_⟩
    · simp only [sampleJson, read]
    · rw [List.forall₂_map_left_iff, List.forall₂_same]
      exact fun q _ => rfl

def sampleOperations : List (Operation String String) := [
  .writeJobToQueue (sampleJob (sampleEntry 7 .new { maxRetries := 1 })),
  .writeJobToQueue (sampleJob (sampleEntry 8 .new {})),
  .getJobs ["default"] 5 (fun _ => 85) (fun _ => 85),
  .mark (.markJobInRetryAndIncrement 90) 7 90,
  .getJobs ["default"] 5 (fun _ => 100) (fun _ => 100)]

def sampleTurn (call : Nat) : List (Exclusive.Action (Operation String String)) :=
  .attempt call :: List.replicate 5 .advance

def sampleSchedule : List (Exclusive.Action (Operation String String)) :=
  sampleOperations.map .call ++ .attempt 1 :: .attempt 0 :: List.replicate 5 .advance ++
    sampleTurn 0 ++ sampleTurn 2 ++ sampleTurn 3 ++ sampleTurn 4

def sampleRun : Option (Processes String String) :=
  execute (fun _ _ => true) (Exclusive.step (code sampleJson)) { resource := none } sampleSchedule

theorem file_is_serial_of_five : ∃ processes, sampleRun = some processes ∧
    processes.admitted = [1, 0, 2, 3, 4] ∧
    ∃ jobs, Ran [] processes.finished jobs ∧ jobs.map FileSystemJobMetaData.entry =
      [sampleEntry 8 (.other "Queued") {}, sampleEntry 7 (.other "Queued") sampleRetry] := by
  have checked : sampleRun.any (fun processes => processes.admitted = [1, 0, 2, 3, 4] ∧
      (calledIds processes.called).Nodup ∧ addedEntries processes.finished =
        [sampleEntry 8 (.other "Queued") {}, sampleEntry 7 (.other "Queued") sampleRetry]) =
      true := by decide +kernel
  obtain ⟨processes, run, known⟩ := (Option.any_eq_true _ _).mp checked
  obtain ⟨order, distinct, added⟩ := of_decide_eq_true known
  obtain ⟨_, _, jobs, ran, _, entries, _⟩ := @file_is_serial _ _ sampleJson none [] processes
    sampleJson_preserves rfl (reaches_of_execute (fun _ _ _ => trivial) run) distinct
  exact ⟨processes, run, order, jobs, ran, entries.trans added⟩

end OddJob.FileSystem
