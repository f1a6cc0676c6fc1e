import OddJob.FileSystem.Sharing

/-! What the file has of each job, member by member: all that was written, of which not all is
restored by the next operation. -/

namespace OddJob.FileSystem

open Linq

variable {CliType Value Text : Type}

/-- Arguments in another form. -/
def mapValue (f : Value → Text) (args : List (OddJobParameter Value)) :
    List (OddJobParameter Text) :=
  args.map fun arg => { arg with value := arg.value.map f }

theorem mapValue_mapValue_iff {write : Value → Text} {read : Text → Value}
    {args : List (OddJobParameter Value)} :
    mapValue read (mapValue write args) = args ↔
      ∀ arg ∈ args, ∀ value ∈ arg.value, read (write value) = value := by
  rw [mapValue, mapValue, List.map_map, ← (List.map_id args).congr_right, List.map_inj_left]
  apply forall₂_congr
  intro arg _
  obtain ⟨name, value, type⟩ := arg
  cases value <;> simp

namespace FileSystemJobMetaData

/-- A job with its arguments in another form. -/
def mapValues (f : Value → Text) (q : FileSystemJobMetaData CliType Value) :
    FileSystemJobMetaData CliType Text :=
  { q with jobArgs := mapValue f q.jobArgs }

/-- What is restored of a record: `QueueTime`, `FailureTime` and `LastAttemptTime` have internal
setters, and keep their defaults. -/
def restored (read : Text → Value) (q : FileSystemJobMetaData CliType Text) :
    FileSystemJobMetaData CliType Value :=
  { q.mapValues read with queueTime := 0, failureTime := 0, lastAttemptTime := 0 }

end FileSystemJobMetaData

open FileSystemJobMetaData

/-- `JsonConvert` writes every public property of a job, and restores those that have a public
setter. The arguments are values in memory and texts in the file. -/
structure Json.Documents (json : Json CliType Value) (write : Value → Text)
    (read : Text → Value) where
  /-- the records that a text has -/
  records : List UInt8 → Option (List (FileSystemJobMetaData CliType Text))
  empty : json.deserializeObject [] = .ok none
  written : ∀ jobs toWrite, json.serializeObject jobs = .ok toWrite →
    records toWrite = some (jobs.map (mapValues write))
  restores : ∀ toRead found stored, records toRead = some found →
    json.deserializeObject toRead = .ok stored → stored = some (found.map (restored read))

/-- What was written can be read: the arguments are of serialisable types. -/
def Json.Documents.Readable {json : Json CliType Value} {write : Value → Text}
    {read : Text → Value} (documents : json.Documents write read) : Prop :=
  ∀ toRead found, documents.records toRead = some found →
    ∃ stored, json.deserializeObject toRead = .ok stored

/-- The members that the store reads are among those that are restored. -/
theorem Json.Documents.preserves {json : Json CliType Value} {write : Value → Text}
    {read : Text → Value} (documents : json.Documents write read) (readable : documents.Readable) :
    json.Preserves where
  empty := documents.empty
  entries jobs toWrite written := by
    have found := documents.written jobs toWrite written
    obtain ⟨stored, decoded⟩ := readable toWrite _ found
    obtain rfl := documents.restores toWrite _ stored found decoded
    refine ⟨_, decoded, ?_⟩
    rw [List.forall₂_map_left_iff, List.forall₂_map_left_iff, List.forall₂_same]
    exact fun q _ => rfl

namespace Operation

/-- The jobs of a list that an operation claims. -/
def claimed (operation : Operation CliType Value)
    (serializer : List (FileSystemJobMetaData CliType Value)) : List Guid :=
  match operation with
  | .getJobs queueNames fetchSize now _ =>
    match fetched queueNames fetchSize now serializer with
    | .ok filtered => filtered.map fun row => row.1.jobId
    | .error _ => []
  | _ => []

/-- The mark that an operation puts on a job. -/
def marks (operation : Operation CliType Value) (jobId : Guid) : Option Mark :=
  match operation with
  | .mark kind own _ => if own = jobId then some kind else none
  | _ => none

/-- The record that an operation adds. -/
def addition : Operation CliType Value → List (FileSystemJobMetaData CliType Value)
  | .writeJobToQueue data => [data]
  | _ => []

/-- The ways a job of the list can change. -/
inductive Touches (operation : Operation CliType Value) (claimed : List Guid)
    (q : FileSystemJobMetaData CliType Value) : FileSystemJobMetaData CliType Value → Prop where
  | kept : Touches operation claimed q q
  | queued (member : q.jobId ∈ claimed) (now : Ticks) :
      Touches operation claimed q (FileSystem.queued now q)
  | marked {kind : Mark} {now : Ticks} (own : operation.marks q.jobId = some kind)
      (done : transformFunc kind now q = .ok after) : Touches operation claimed q after

theorem Touches.arguments {operation : Operation CliType Value} {claimed : List Guid}
    {q after : FileSystemJobMetaData CliType Value} (touch : operation.Touches claimed q after) :
    after.jobArgs = q.jobArgs ∧ after.typeExecutedOn = q.typeExecutedOn ∧
      after.methodGenericTypes = q.methodGenericTypes := by
  cases touch with
  | kept => exact ⟨rfl, rfl, rfl⟩
  | queued member now => exact ⟨rfl, rfl, rfl⟩
  | @marked _ kind now own done =>
    cases kind with
    | markJobInRetryAndIncrement lastAttempt =>
      simp only [transformFunc] at done
      split at done <;> cases done
      exact ⟨rfl, rfl, rfl⟩
    | _ =>
      cases done
      exact ⟨rfl, rfl, rfl⟩

end Operation

section Run

variable {operation : Operation CliType Value}
  {serializer after results : List (FileSystemJobMetaData CliType Value)}

private theorem touches_getJobs {queueNames : List String} {fetchSize : Int}
    {now queueTime : Nat → Ticks}
    (done : getJobs queueNames fetchSize now queueTime serializer = .ok (after, results)) :
    results.map FileSystemJobMetaData.jobId =
        (Operation.getJobs queueNames fetchSize now queueTime).claimed serializer ∧
      List.Forall₂ ((Operation.getJobs queueNames fetchSize now queueTime).Touches
        ((Operation.getJobs queueNames fetchSize now queueTime).claimed serializer))
        serializer after := by
  obtain ⟨filtered, taken, rfl, rfl⟩ := getJobs_eq_ok done
  have claimed : (Operation.getJobs queueNames fetchSize now queueTime).claimed serializer =
      filtered.map fun row => row.1.jobId := by
    simp only [Operation.claimed, taken]
  have rows := (fetched_rows taken).1.subset
  have places : (serializer.zipIdx.map Prod.snd).Nodup := by
    rw [List.zipIdx_map_snd]
    exact List.nodup_range'
  refine ⟨claimed ▸ List.map_map, ?_⟩
  nth_rewrite 2 [← List.zipIdx_map_fst 0 serializer]
  rw [List.forall₂_map_left_iff, List.forall₂_map_right_iff, List.forall₂_same]
  intro row member
  split
  · rename_i chosen
    obtain ⟨item, found, place⟩ := List.any_eq_true.mp chosen
    obtain rfl : item = row :=
      List.inj_on_of_nodup_map places (rows found) member (of_decide_eq_true place)
    exact .queued (claimed ▸ List.mem_map_of_mem found) _
  · exact .kept

private theorem touches_writeJobState {mark : Mark} {jobId : Guid} {now : Ticks}
    (done : writeJobState jobId (transformFunc mark now) serializer = .ok after) :
    List.Forall₂ ((Operation.mark mark jobId now).Touches []) serializer after := by
  induction serializer generalizing after with
  | nil =>
    cases done
    exact .nil
  | cons q rest ih =>
    unfold writeJobState at done
    split at done
    · rename_i own
      obtain ⟨set, transformed, rfl⟩ := map_eq_ok done
      refine .cons (.marked (if_pos own.symm) transformed) ?_
      exact List.forall₂_same.mpr fun other _ => .kept
    · obtain ⟨later, rested, rfl⟩ := map_eq_ok done
      exact .cons .kept (ih rested)

/-- An operation touches the jobs it claims or marks, and adds its own at the end. -/
theorem Operation.touches_run (done : operation.run serializer = .ok (after, results)) :
    ∃ front, after = front ++ operation.addition ∧
      List.Forall₂ (operation.Touches (operation.claimed serializer)) serializer front := by
  have same : List.Forall₂ (operation.Touches (operation.claimed serializer)) serializer
      serializer := List.forall₂_same.mpr fun q _ => .kept
  cases operation with
  | writeJobToQueue data =>
    cases done
    exact ⟨serializer, rfl, same⟩
  | getJobs queueNames fetchSize now queueTime =>
    exact ⟨after, (List.append_nil after).symm, (touches_getJobs done).2⟩
  | getJob jobId =>
    cases done
    exact ⟨serializer, (List.append_nil serializer).symm, same⟩
  | mark kind jobId now =>
    simp only [run] at done
    cases written : writeJobState jobId (transformFunc kind now) serializer with
    | error thrown => rw [written] at done; cases done
    | ok changed =>
      rw [written] at done
      cases done
      exact ⟨after, (List.append_nil after).symm, touches_writeJobState written⟩

theorem Operation.claimed_eq (fetches : operation.fetches = true)
    (done : operation.run serializer = .ok (after, results)) :
    results.map FileSystemJobMetaData.jobId = operation.claimed serializer := by
  cases operation with
  | getJobs queueNames fetchSize now queueTime => exact (touches_getJobs done).1
  | _ => cases fetches

end Run

section Records

variable {json : Json CliType Value} {write : Value → Text} {read : Text → Value}
  {operation : Operation CliType Value} {file : Option (List UInt8)}
  {stored results : List (FileSystemJobMetaData CliType Value)}
  {records : List (FileSystemJobMetaData CliType Text)}

/-- The file has these records. An adder makes the file, and takes an empty one. -/
def Json.Documents.Shows (documents : json.Documents write read) (file : Option (List UInt8))
    (records : List (FileSystemJobMetaData CliType Text)) : Prop :=
  match file with
  | none | some [] => records = []
  | some toRead => documents.records toRead = some records

namespace Json.Documents

variable {documents : json.Documents write read}

private theorem records_ne_nil {toRead : List UInt8}
    (found : documents.records toRead = some records) : toRead ≠ [] := by
  rintro rfl
  cases documents.restores [] records none found documents.empty

theorem shows_of_records {toRead : List UInt8}
    (found : documents.records toRead = some records) : documents.Shows (some toRead) records := by
  cases toRead with
  | nil => exact absurd rfl (records_ne_nil found)
  | cons byte rest => exact found

theorem Shows.create (shows : documents.Shows file records) :
    documents.Shows (some (file.getD [])) records := by
  cases file with
  | none => exact shows
  | some content => exact shows

theorem Shows.loaded (shows : documents.Shows file records)
    (done : operation.read json (file.getD []) = .ok stored) :
    stored = records.map (restored read) := by
  have created := shows.create
  rcases operation.read_eq_ok done with ⟨empty, rfl⟩ | decoded
  · rw [empty] at created
    obtain rfl : records = [] := created
    rfl
  · cases content : file.getD [] with
    | nil =>
      rw [content, documents.empty] at decoded
      cases decoded
    | cons byte rest =>
      rw [content] at created decoded
      exact Option.some.inj (documents.restores _ _ _ created decoded)

variable (operation) in
theorem Shows.perform (shows : documents.Shows file records) :
    match (operation.perform json file).2 with
    | .error _ => (operation.perform json file).1.getD [] = file.getD [] ∧
        documents.Shows (operation.perform json file).1 records
    | .ok results => ∃ changed, operation.run (records.map (restored read)) = .ok (changed, results) ∧
        documents.Shows (operation.perform json file).1
          (if operation.writes then changed.map (mapValues write) else records) := by
  by_cases missing : operation.fileMode = .openExisting ∧ file = none
  · rw [Operation.perform, if_pos missing]
    obtain ⟨_, rfl⟩ := missing
    exact ⟨rfl, shows⟩
  · rw [Operation.perform, if_neg missing]
    cases transformed : operation.transform json (file.getD []) with
    | error thrown =>
      simp only [transformed]
      exact ⟨rfl, shows.create⟩
    | ok outcome =>
      obtain ⟨toWrite, results⟩ := outcome
      obtain ⟨stored, changed, loaded, ran, encoded⟩ := operation.transform_eq_ok transformed
      simp only [transformed]
      refine ⟨changed, shows.loaded loaded ▸ ran, ?_⟩
      rcases encoded with ⟨rfl, silent⟩ | ⟨bytes, rfl, writing, encoded⟩
      · rw [silent]
        exact shows.create
      · rw [if_pos writing]
        exact shows_of_records (documents.written changed bytes encoded)

end Json.Documents

end Records

section Frames

variable {q changed : FileSystemJobMetaData CliType Text} {write : Value → Text}
  {read : Text → Value} {operation : Operation CliType Value} {claimed : List Guid}

/-- A record differs at most in the fields that the transform of a mark assigns, and without
one in none. -/
def Agrees (mark : Option Mark) (q changed : FileSystemJobMetaData CliType Text) : Prop :=
  match mark with
  | none => changed = q
  | some .markJobFailed =>
    changed = { q with status := changed.status, failureTime := changed.failureTime }
  | some .markJobInProgress | some .markJobSuccess =>
    changed = { q with status := changed.status, lastAttemptTime := changed.lastAttemptTime }
  | some (.markJobInRetryAndIncrement _) =>
    changed = { q with status := changed.status, retryParameters := changed.retryParameters } ∧
      (changed.retryParameters.map fun parameters => { parameters with
          lastAttempt := none
          retryCount := 0 }) =
        q.retryParameters.map fun parameters => { parameters with
          lastAttempt := none
          retryCount := 0 }

/-- The record of a job that is not claimed has changed no more than its mark asks for. -/
def Operation.Frames (operation : Operation CliType Value) (claimed : List Guid)
    (q changed : FileSystemJobMetaData CliType Text) : Prop :=
  q.jobId ∈ claimed ∨ Agrees (operation.marks q.jobId) q changed

/-- What is written again as it was read: every time that is not restored is the default one
or is assigned by the mark, and every argument has the text that its value is given. -/
structure Settled (write : Value → Text) (read : Text → Value) (mark : Option Mark)
    (q : FileSystemJobMetaData CliType Text) : Prop where
  queueTime : q.queueTime = 0
  failureTime : mark ≠ some .markJobFailed → q.failureTime = 0
  lastAttemptTime : mark ≠ some .markJobInProgress → mark ≠ some .markJobSuccess →
    q.lastAttemptTime = 0
  jobArgs : ∀ arg ∈ q.jobArgs, ∀ text ∈ arg.value, write (read text) = text

/-- A record comes out of an operation as it was exactly where it is settled. -/
theorem agrees_iff_settled {mark : Option Mark} {after : FileSystemJobMetaData CliType Value}
    (touched : after = q.restored read ∨ ∃ kind now, mark = some kind ∧
      transformFunc kind now (q.restored read) = .ok after) :
    Agrees mark q (after.mapValues write) ↔ Settled write read mark q := by
  have settled : Settled write read mark q ↔ q.queueTime = 0 ∧
      (mark ≠ some .markJobFailed → q.failureTime = 0) ∧
      (mark ≠ some .markJobInProgress → mark ≠ some .markJobSuccess → q.lastAttemptTime = 0) ∧
      mapValue write (mapValue read q.jobArgs) = q.jobArgs := by
    rw [mapValue_mapValue_iff]
    exact ⟨fun ⟨queueTime, failureTime, lastAttemptTime, jobArgs⟩ =>
      ⟨queueTime, failureTime, lastAttemptTime, jobArgs⟩,
      fun ⟨queueTime, failureTime, lastAttemptTime, jobArgs⟩ =>
      ⟨queueTime, failureTime, lastAttemptTime, jobArgs⟩⟩
  rw [settled]
  -- the fields of both records, one by one
  obtain ⟨⟩ := q
  rcases touched with rfl | ⟨kind, now, rfl, done⟩
  · rcases mark with _ | _ | _ | _ | _ <;> simp [Agrees, restored, mapValues] <;> grind
  · cases kind with
    | markJobInRetryAndIncrement lastAttempt =>
      simp only [transformFunc] at done
      split at done
      · cases done
      · rename_i parameters present
        obtain rfl : _ = some parameters := present
        cases done
        simp [Agrees, restored, mapValues]
        grind
    | _ =>
      cases done
      simp [Agrees, restored, mapValues]
      grind

theorem Operation.frames_refl (operation : Operation CliType Value) (claimed : List Guid)
    (q : FileSystemJobMetaData CliType Text) : operation.Frames claimed q q := by
  right
  rcases operation.marks q.jobId with _ | _ | _ | _ | _
  · rfl
  · rfl
  · rfl
  · rfl
  · exact ⟨rfl, rfl⟩

theorem frames_iff_settled {after : FileSystemJobMetaData CliType Value}
    (touched : operation.Touches claimed (q.restored read) after) :
    operation.Frames claimed q (after.mapValues write) ↔
      q.jobId ∈ claimed ∨ Settled write read (operation.marks q.jobId) q := by
  cases touched with
  | kept => exact or_congr_right (agrees_iff_settled (.inl rfl))
  | queued member now => exact iff_of_true (.inl member) (.inl member)
  | marked own done => exact or_congr_right (agrees_iff_settled (.inr ⟨_, _, own, done⟩))

end Frames

section Framed

variable {json : Json CliType Value} {write : Value → Text} {read : Text → Value}
  {operation : Operation CliType Value} {file : Option (List UInt8)}
  {records : List (FileSystemJobMetaData CliType Text)}

namespace Json.Documents

/-- After the operation the file has the records of all the jobs it had, each as far as it is
to stay. -/
def Framed (documents : json.Documents write read) (operation : Operation CliType Value)
    (file : Option (List UInt8)) (records : List (FileSystemJobMetaData CliType Text)) : Prop :=
  ∃ after, documents.Shows (operation.perform json file).1 after ∧
    List.Forall₂ (operation.Frames (operation.claimed (records.map (restored read)))) records
      (after.take records.length)

variable {documents : json.Documents write read}

theorem Shows.unique {found : List (FileSystemJobMetaData CliType Text)}
    (shows : documents.Shows file records) (also : documents.Shows file found) :
    records = found := by
  match file with
  | none | some [] => exact shows.trans also.symm
  | some (_ :: _) => exact Option.some.inj (shows.symm.trans also)

private theorem framed_of_unchanged
    (unchanged : documents.Shows (operation.perform json file).1 records) :
    documents.Framed operation file records := by
  refine ⟨records, unchanged, ?_⟩
  rw [List.take_length]
  exact List.forall₂_same.mpr fun q _ => operation.frames_refl _ q

/-- An operation that throws leaves the file alone. One that returns keeps all that it does
not claim or mark exactly where it has nothing to write, or finds every such record settled. -/
theorem framed_iff (documents : json.Documents write read)
    (shows : documents.Shows file records) :
    (∀ thrown, (operation.perform json file).2 = .error thrown →
      (operation.perform json file).1.getD [] = file.getD [] ∧
        documents.Framed operation file records) ∧
    ∀ results, (operation.perform json file).2 = .ok results →
      (operation.fetches = true → results.map FileSystemJobMetaData.jobId =
        operation.claimed (records.map (restored read))) ∧
      (documents.Framed operation file records ↔ (operation.writes = true → ∀ q ∈ records,
        q.jobId ∈ operation.claimed (records.map (restored read)) ∨
          Settled write read (operation.marks q.jobId) q)) := by
  have performed := shows.perform operation
  constructor
  · intro thrown outcome
    rw [outcome] at performed
    exact ⟨performed.1, framed_of_unchanged performed.2⟩
  · intro results outcome
    rw [outcome] at performed
    obtain ⟨changed, ran, left⟩ := performed
    refine ⟨fun fetches => operation.claimed_eq fetches ran, ?_⟩
    cases writing : operation.writes with
    | false =>
      rw [writing] at left
      exact iff_of_true (framed_of_unchanged left) (by simp)
    | true =>
      rw [if_pos writing] at left
      obtain ⟨front, rfl, touched⟩ := operation.touches_run ran
      have length : front.length = records.length := by
        rw [← touched.length_eq, List.length_map]
      have first : ((front ++ operation.addition).map (mapValues write)).take records.length =
          front.map (mapValues write) := by
        rw [List.map_append, ← length, List.take_left' (List.length_map _)]
      have rowwise := List.forall₂_map_left_iff.mp touched
      have framed : documents.Framed operation file records ↔
          List.Forall₂ (operation.Frames (operation.claimed (records.map (restored read))))
            records (front.map (mapValues write)) := by
        rw [← first]
        constructor
        · rintro ⟨after, found, kept⟩
          rwa [found.unique left] at kept
        · exact fun kept => ⟨_, left, kept⟩
      rw [framed, List.forall₂_map_right_iff, forall₂_iff_forall rowwise
        fun q after => frames_iff_settled]
      simp

end Json.Documents

end Framed

section Letters

variable [DecidableEq CliType] [DecidableEq Text]
  {samples : List (FileSystemJobMetaData CliType Text)}

def lettersOf (samples : List (FileSystemJobMetaData CliType Text)) :
    List (FileSystemJobMetaData CliType Text) → Except ClrException (List UInt8)
  | [] => .ok []
  | q :: rest => do
    let letters ← lettersOf samples rest
    if q ∈ samples then return UInt8.ofNat (samples.idxOf q) :: letters
    else .error (.json "Error getting value")

def recordsOf (samples : List (FileSystemJobMetaData CliType Text)) :
    List UInt8 → Option (List (FileSystemJobMetaData CliType Text))
  | [] => some []
  | letter :: rest => do
    let q ← samples[letter.toNat]?
    let records ← recordsOf samples rest
    return q :: records

private theorem recordsOf_lettersOf (small : samples.length ≤ 256)
    {records : List (FileSystemJobMetaData CliType Text)} {letters : List UInt8}
    (written : lettersOf samples records = .ok letters) :
    recordsOf samples letters = some records := by
  induction records generalizing letters with
  | nil =>
    cases written
    rfl
  | cons q rest ih =>
    cases rested : lettersOf samples rest with
    | error thrown => simp only [lettersOf, rested, bind, Except.bind] at written; cases written
    | ok others =>
      simp only [lettersOf, rested, bind, Except.bind] at written
      split at written
      · rename_i known
        cases written
        have fits : samples.idxOf q < 256 := (List.idxOf_lt_length_of_mem known).trans_le small
        have letter : samples[(UInt8.ofNat (samples.idxOf q)).toNat]? = some q := by
          rw [UInt8.toNat_ofNat_of_lt' fits]
          exact List.getElem?_idxOf known
        rw [recordsOf, letter, ih rested]
        rfl
      · cases written

def letterJson (samples : List (FileSystemJobMetaData CliType Text)) (write : Value → Text)
    (read : Text → Value) : Json CliType Value where
  serializeObject jobs := (lettersOf samples (jobs.map (mapValues write))).map (91 :: ·)
  deserializeObject
    | [] => .ok none
    | _ :: letters => match recordsOf samples letters with
      | some records => .ok (some (records.map (restored read)))
      | none => .error (.json "Unexpected character encountered while parsing value")

def letterDocuments (samples : List (FileSystemJobMetaData CliType Text)) (write : Value → Text)
    (read : Text → Value) (small : samples.length ≤ 256) :
    (letterJson samples write read).Documents write read where
  records
    | [] => none
    | _ :: letters => recordsOf samples letters
  empty := rfl
  written jobs toWrite written := by
    obtain ⟨letters, encoded, rfl⟩ := map_eq_ok written
    exact recordsOf_lettersOf small encoded
  restores toRead found stored parsed decoded := by
    cases toRead with
    | nil => cases parsed
    | cons bracket letters =>
      simp only [letterJson, parsed] at decoded
      cases decoded
      rfl

theorem letterDocuments_readable (write : Value → Text) (read : Text → Value)
    (small : samples.length ≤ 256) : (letterDocuments samples write read small).Readable := by
  intro toRead found parsed
  cases toRead with
  | nil => cases parsed
  | cons bracket letters =>
    have known : recordsOf samples letters = some found := parsed
    refine ⟨some (found.map (restored read)), ?_⟩
    simp only [letterJson, known]

end Letters

def failedJob (failureTime : Ticks) : FileSystemJobMetaData String String :=
  { sampleJob (sampleEntry 7 .failed {}) with failureTime }

def orderJob : FileSystemJobMetaData String String :=
  { sampleJob (sampleEntry 9 .retry { maxRetries := 2, retryCount := 1, lastAttempt := some 60 }) with
    jobArgs := [{ name := some "order", value := some "12", type := some "Jobs.Order, Jobs" },
      { name := some "note", value := none, type := some "System.String" }]
    methodGenericTypes := ["System.Int64"] }

def failedSamples : List (FileSystemJobMetaData String String) :=
  [sampleJob (sampleEntry 7 .new {}), failedJob 90, failedJob 0, sampleJob (sampleEntry 8 .new {}),
    orderJob]

def failedDocuments : (letterJson failedSamples id id).Documents id id :=
  letterDocuments failedSamples id id (by decide)

def failedFile : Option (List UInt8) :=
  ((Operation.mark .markJobFailed 7 90).perform (letterJson failedSamples id id)
    ((Operation.writeJobToQueue (sampleJob (sampleEntry 7 .new {}))).perform
      (letterJson failedSamples id id) none).1).1

theorem framed_iff_of_new : failedDocuments.Framed (.mark .markJobFailed 7 90) (some [91, 4, 0])
    [orderJob, sampleJob (sampleEntry 7 .new {})] := by
  have shows : failedDocuments.Shows (some [91, 4, 0])
    [orderJob, sampleJob (sampleEntry 7 .new {})] := rfl
  refine ((failedDocuments.framed_iff shows).2 [] rfl).2.mpr fun _ q member => .inr ?_
  rcases List.mem_cons.mp member with rfl | member
  · exact ⟨rfl, fun _ => rfl, fun _ _ => rfl, fun _ _ _ _ => rfl⟩
  · obtain rfl := List.mem_singleton.mp member
    exact ⟨rfl, fun _ => rfl, fun _ _ => rfl, fun _ _ _ _ => rfl⟩

/-- Another job is added, and the time of the failure is gone. -/
theorem failureTime_not_framed : failedDocuments.Shows failedFile [failedJob 90] ∧
    ¬ failedDocuments.Framed (.writeJobToQueue (sampleJob (sampleEntry 8 .new {}))) failedFile
      [failedJob 90] := by
  refine ⟨rfl, ?_⟩
  rintro ⟨after, shown, kept⟩
  have left : failedDocuments.Shows
      ((Operation.writeJobToQueue (sampleJob (sampleEntry 8 .new {}))).perform
        (letterJson failedSamples id id) failedFile).1
      [failedJob 0, sampleJob (sampleEntry 8 .new {})] := rfl
  obtain rfl := shown.unique left
  rcases List.forall₂_cons.mp kept with ⟨claimed | agrees, _⟩
  · cases claimed
  · have time : (0 : Ticks) = 90 := congrArg FileSystemJobMetaData.failureTime agrees
    exact absurd time (by decide)

end OddJob.FileSystem
