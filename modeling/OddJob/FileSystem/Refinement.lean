import OddJob.FileSystem.Document
import OddJob.FileSystem.Mirror

/-! The file system store and the SQL store under the same calls, one after another, at the
same times. -/

namespace OddJob.FileSystem

open Linq Sql Transition

variable {Key CliType Value : Type} [LinearOrder Key]

/-- What one `GetJobs` returned or threw in either store. -/
structure Fetch (CliType Value : Type) where
  now : Ticks
  fileSystem : Outcome CliType Value
  sql : Except ClrException (List (SqlDbOddJob CliType Value))

structure Stores (CliType Value : Type) where
  file : Option (List UInt8) := none
  tables : Tables := {}
  /-- the jobs of the calls of `AddJob`, with the time they were to be executed at -/
  added : List (Guid × Option Ticks) := []
  fetches : List (Fetch CliType Value) := []

inductive Call (Key CliType Value : Type) where
  /-- the job of the expression, and its definition in the form that SQL stores -/
  | addJob (settings : SerializableJobCreator.Settings CliType) (jobData : OddJob CliType Value)
      (wire : SerializableOddJob) (now : Ticks)
  | getJobs (claim : Claim Key) (scan : List SqlCommonDbOddJobMetaData)
      (resultSet : List SqlQueueRowSet)
  | mark (mark : Mark) (jobId : Guid) (now : Ticks)

/-- The definition of a job has the settings of the call. -/
structure Defines (settings : SerializableJobCreator.Settings CliType)
    (wire : SerializableOddJob) : Prop where
  retryParameters : wire.retryParameters = some (settings.retryParameters.getD {})
  executionTime : wire.executionTime = settings.executionTime
  queueName : wire.queueName = settings.queueName

instance (settings : SerializableJobCreator.Settings CliType) (wire : SerializableOddJob) :
    Decidable (Defines settings wire) :=
  decidable_of_iff (wire.retryParameters = some (settings.retryParameters.getD {}) ∧
    wire.executionTime = settings.executionTime ∧ wire.queueName = settings.queueName)
    ⟨fun ⟨parameters, time, queue⟩ => ⟨parameters, time, queue⟩,
      fun valid => ⟨valid.retryParameters, valid.executionTime, valid.queueName⟩⟩

/-- What a call asks of the file system. -/
def Call.operation : Call Key CliType Value → Operation CliType Value
  | .addJob settings jobData wire now =>
    FileSystem.addJob jobData settings.retryParameters settings.executionTime settings.queueName
      wire.jobId now
  | .getJobs claim _ _ =>
    .getJobs claim.queueNames claim.fetchSize (fun _ => claim.lockTime) fun _ => claim.lockTime
  | .mark kind jobId now => .mark kind jobId now

/-- `JsonConvert` can write the job, and read what it has written. -/
def Json.Storable (json : Json CliType Value) (q : FileSystemJobMetaData CliType Value) : Prop :=
  ∃ toWrite again, json.serializeObject [q] = .ok toWrite ∧
    json.deserializeObject toWrite = .ok (some again)

instance (json : Json CliType Value) : DecidablePred json.Storable := fun q =>
  match encoded : json.serializeObject [q] with
  | .error _ => .isFalse fun ⟨_, _, written, _⟩ => nomatch encoded.symm.trans written
  | .ok toWrite =>
    match decoded : json.deserializeObject toWrite with
    | .ok (some again) => .isTrue ⟨toWrite, again, encoded, decoded⟩
    | .ok none | .error _ => .isFalse fun ⟨_, _, written, read⟩ => by
      cases encoded.symm.trans written
      cases decoded.symm.trans read

/-- A list of jobs that can be stored comes back with the members that the store reads, and
whether a job can be stored is up to its arguments and types alone. -/
structure Json.Keeps (json : Json CliType Value) : Prop where
  empty : json.deserializeObject [] = .ok none
  list : ∀ jobs, (∀ q ∈ jobs, json.Storable q) → ∃ toWrite again,
    json.serializeObject jobs = .ok toWrite ∧
      json.deserializeObject toWrite = .ok (some again) ∧ List.Forall₂ SameEntry again jobs
  arguments : ∀ q other : FileSystemJobMetaData CliType Value, json.Storable q →
    other.jobArgs = q.jobArgs → other.typeExecutedOn = q.typeExecutedOn →
    other.methodGenericTypes = q.methodGenericTypes → json.Storable other

namespace Stores

/-- One call to both stores. Job ids and lock ids are new ones, and the database scans and
returns its rows in any order. -/
def step (json : Json CliType Value) (decoder : Decoder CliType Value)
    (stores : Stores CliType Value) (call : Call Key CliType Value) :
    Option (Stores CliType Value) :=
  let (file, outcome) := call.operation.perform json stores.file
  match call with
  | .addJob settings _ wire now =>
    if Defines settings wire ∧ wire.jobId ∉ stores.added.map Prod.fst then
      some { stores with
        file
        tables := stores.tables.addJob wire now
        added := stores.added ++ [(wire.jobId, settings.executionTime)] }
    else none
  | .getJobs claim scan resultSet =>
    if scan.Perm stores.tables.queue ∧
        (∀ q ∈ stores.tables.queue, q.lockGuid ≠ some claim.lockGuid) ∧
        Returns (claimTables claim scan stores.tables) (fun q => q.lockGuid = some claim.lockGuid)
          resultSet then
      let (tables, sql) := Sql.getJobs decoder claim scan resultSet stores.tables
      some { stores with
        file
        tables
        fetches := stores.fetches ++ [{ now := claim.lockTime, fileSystem := outcome, sql }] }
    else none
  | .mark kind jobId now => some { stores with file, tables := kind.apply jobId now stores.tables }

/-- The list in the file. -/
def stored (json : Json CliType Value) (file : Option (List UInt8)) :
    List (FileSystemJobMetaData CliType Value) :=
  match file with
  | none => []
  | some toRead =>
    match json.deserializeObject toRead with
    | .ok (some list) => list
    | _ => []

/-- `CreateJobDefinition` makes such a definition. -/
theorem defines_of_createJobDefinition [DecidableEq CliType] {platform : Platform CliType Value}
    {json : JsonConvert platform} {staticClassJob object t : CliType} {ParamType : Type}
    {jobExpression : MethodCallExpression CliType ParamType Value}
    {settings : SerializableJobCreator.Settings CliType} {jobId : Guid} {wire : SerializableOddJob}
    (created : SerializableJobCreator.createJobDefinition json staticClassJob object t
      jobExpression settings jobId = .ok wire) : Defines settings wire := by
  obtain ⟨job, jobArgs, _, _, rfl⟩ :=
    (SerializableJobCreator.createJobDefinition_eq_ok_iff json).mp created
  exact ⟨rfl, rfl, rfl⟩

/-- What is taken for granted of the calls: waits of whole seconds, an order without ties,
and no claim that comes to its timeout. -/
def Assumed (stores : Stores CliType Value) : Call Key CliType Value → Prop
  | .addJob settings _ _ _ =>
    ∀ parameters ∈ settings.retryParameters, ticksPerSecond ∣ parameters.minRetryWait
  | .getJobs claim _ _ =>
    Unexpired claim stores.tables.queue ∧ Untied claim stores.tables.queue
  | .mark _ _ _ => True

/-- A fetch by which the stores cannot be told apart. -/
structure Alike (json : Json CliType Value) (decoder : Decoder CliType Value)
    (stores : Stores CliType Value) (claim : Claim Key) : Prop where
  created : stores.file ≠ none
  tests : SameTests claim (paired (stored json stores.file) stores.tables.queue)
  order : SameOrder claim (paired (stored json stores.file) stores.tables.queue)
  reads : ∀ row ∈ stores.tables.queue, claim.Chosen stores.tables.queue row →
    decoder.Reads stores.tables row

/-- The condition on the state before a call under which the stores stay alike. -/
structure Comparable (json : Json CliType Value) (decoder : Decoder CliType Value)
    (stores : Stores CliType Value) (call : Call Key CliType Value) : Prop where
  kept : ∀ q ∈ stored json stores.file, json.Storable q
  added : ∀ q ∈ call.operation.addition, json.Storable q
  fetch : ∀ claim scan resultSet, call = .getJobs claim scan resultSet →
    Alike json decoder stores claim

instance (stores : Stores CliType Value) (call : Call Key CliType Value) :
    Decidable (Assumed stores call) :=
  match call with
  | .addJob settings _ _ _ => inferInstanceAs (Decidable (∀ parameters ∈ settings.retryParameters,
      ticksPerSecond ∣ parameters.minRetryWait))
  | .getJobs claim _ _ => inferInstanceAs
    (Decidable (Unexpired claim stores.tables.queue ∧ Untied claim stores.tables.queue))
  | .mark _ _ _ => .isTrue trivial

instance (json : Json CliType Value) (decoder : Decoder CliType Value)
    (stores : Stores CliType Value) (claim : Claim Key) :
    Decidable (Alike json decoder stores claim) :=
  decidable_of_iff (stores.file ≠ none ∧
    SameTests claim (paired (stored json stores.file) stores.tables.queue) ∧
    SameOrder claim (paired (stored json stores.file) stores.tables.queue) ∧
    ∀ row ∈ stores.tables.queue, claim.Chosen stores.tables.queue row →
      decoder.Reads stores.tables row)
    ⟨fun ⟨created, tests, order, reads⟩ => ⟨created, tests, order, reads⟩,
      fun alike => ⟨alike.created, alike.tests, alike.order, alike.reads⟩⟩

instance (json : Json CliType Value) (decoder : Decoder CliType Value)
    (stores : Stores CliType Value) (call : Call Key CliType Value) :
    Decidable (Comparable json decoder stores call) :=
  match call with
  | .getJobs claim scan resultSet =>
    decidable_of_iff ((∀ q ∈ stored json stores.file, json.Storable q) ∧
      Alike json decoder stores claim)
      ⟨fun ⟨kept, alike⟩ => ⟨kept, fun _ none => absurd none List.not_mem_nil,
          by rintro _ _ _ ⟨⟩; exact alike⟩,
        fun comparable => ⟨comparable.kept, comparable.fetch claim scan resultSet rfl⟩⟩
  | .addJob settings jobData wire now =>
    decidable_of_iff ((∀ q ∈ stored json stores.file, json.Storable q) ∧
      ∀ q ∈ (Call.addJob settings jobData wire now : Call Key CliType Value).operation.addition,
        json.Storable q)
      ⟨fun ⟨kept, added⟩ => ⟨kept, added, nofun⟩,
        fun comparable => ⟨comparable.kept, comparable.added⟩⟩
  | .mark _ _ _ =>
    decidable_of_iff (∀ q ∈ stored json stores.file, json.Storable q)
      ⟨fun kept => ⟨kept, fun _ none => absurd none List.not_mem_nil, nofun⟩,
        fun comparable => comparable.kept⟩

/-- Both stores returned the same jobs, none before its time. -/
def Agrees (added : List (Guid × Option Ticks)) (fetch : Fetch CliType Value) : Prop :=
  ∃ jobs jobs', fetch.fileSystem = .ok jobs ∧ fetch.sql = .ok jobs' ∧
    (jobs.map FileSystemJobMetaData.jobId).Perm (jobs'.map SqlDbOddJob.jobId) ∧
    ∀ jobId ∈ jobs.map FileSystemJobMetaData.jobId, ∃ executionTime,
      (jobId, executionTime) ∈ added ∧ ∀ date ∈ executionTime, date ≤ fetch.now

/-- The stores have the same jobs, as far along. -/
structure Mirrored (json : Json CliType Value) (stores : Stores CliType Value) : Prop where
  readable : ∀ toRead ∈ stores.file,
    json.deserializeObject toRead = .ok (some (stored json stores.file))
  rowwise : List.Forall₂ Mirror ((stored json stores.file).map FileSystemJobMetaData.entry)
    stores.tables.queue
  known : stores.tables.queue.map (fun row => (row.jobGuid, row.doNotExecuteBefore)) =
    stores.added
  distinct : (stores.added.map Prod.fst).Nodup
  ids : (stores.tables.queue.map SqlCommonDbOddJobMetaData.id).Nodup
  bounded : ∀ row ∈ stores.tables.queue, row.id < stores.tables.nextId

section Perform

variable {json : Json CliType Value} {file : Option (List UInt8)} {toWrite : List UInt8}
  {operation : Operation CliType Value}
  {changed returned : List (FileSystemJobMetaData CliType Value)}

omit [LinearOrder Key]

private theorem read_stored (keeps : json.Keeps)
    (readable : ∀ toRead ∈ file, json.deserializeObject toRead = .ok (some (stored json file)))
    (created : operation.fileMode = .openExisting → file ≠ none) :
    operation.read json (file.getD []) = .ok (stored json file) := by
  cases file with
  | none =>
    cases operation with
    | writeJobToQueue data => rfl
    | _ => exact absurd rfl (created rfl)
  | some toRead =>
    have decoded := readable toRead rfl
    have nonempty : toRead.length > 0 := by
      cases toRead with
      | nil =>
        rw [keeps.empty] at decoded
        cases decoded
      | cons byte rest => exact Nat.succ_pos _
    cases operation with
    | writeJobToQueue data =>
      simp only [Operation.read, Option.getD_some, if_pos nonempty, decoded, bind, Except.bind]
    | _ => simp only [Operation.read, Option.getD_some, decoded, bind, Except.bind]

/-- An operation on a file that can be read, if its list can be written again. -/
theorem perform_of_run (keeps : json.Keeps)
    (readable : ∀ toRead ∈ file, json.deserializeObject toRead = .ok (some (stored json file)))
    (created : operation.fileMode = .openExisting → file ≠ none)
    (done : operation.run (stored json file) = .ok (changed, returned))
    (writes : operation.writes = true) (encoded : json.serializeObject changed = .ok toWrite) :
    operation.perform json file = (some toWrite, .ok returned) := by
  have present : ¬(operation.fileMode = .openExisting ∧ file = none) :=
    fun missing => created missing.1 missing.2
  have transformed : operation.transform json (file.getD []) = .ok (some toWrite, returned) := by
    rw [Operation.transform, read_stored keeps readable created]
    simp only [bind, Except.bind, done, writes, if_true, encoded]
    rfl
  rw [Operation.perform, if_neg present]
  simp only [transformed, Option.getD_some]

/-- An operation on jobs that can be stored leaves jobs that can be stored. -/
theorem storable_of_run (keeps : json.Keeps) {jobs : List (FileSystemJobMetaData CliType Value)}
    (kept : ∀ q ∈ jobs, json.Storable q) (added : ∀ q ∈ operation.addition, json.Storable q)
    (done : operation.run jobs = .ok (changed, returned)) :
    ∀ q ∈ changed, json.Storable q := by
  obtain ⟨front, rfl, touched⟩ := operation.touches_run done
  intro q member
  rcases List.mem_append.mp member with older | newer
  · obtain ⟨place, inside, rfl⟩ := List.getElem_of_mem older
    have even := touched.length_eq
    have touch := touched.get (even ▸ inside) inside
    have before := kept _ (List.getElem_mem (even ▸ inside : place < jobs.length))
    obtain ⟨args, type, generics⟩ := touch.arguments
    exact keeps.arguments _ _ before args type generics
  · exact added q newer

/-- Jobs that can be stored are in the file once they are written. -/
theorem stored_of_storable (keeps : json.Keeps) (storable : ∀ q ∈ changed, json.Storable q) :
    ∃ toWrite, json.serializeObject changed = .ok toWrite ∧
      (∀ toRead ∈ some toWrite,
        json.deserializeObject toRead = .ok (some (stored json (some toWrite)))) ∧
      (stored json (some toWrite)).map FileSystemJobMetaData.entry =
        changed.map FileSystemJobMetaData.entry := by
  obtain ⟨toWrite, again, encoded, decoded, same⟩ := keeps.list changed storable
  have list : stored json (some toWrite) = again := by
    simp only [stored, decoded]
  refine ⟨toWrite, encoded, ?_⟩
  rw [list]
  refine ⟨?_, forall₂_sameEntry.mp same⟩
  rintro _ ⟨⟩
  exact decoded

end Perform

section Step

variable {json : Json CliType Value} {decoder : Decoder CliType Value}
  {stores after : Stores CliType Value} {call : Call Key CliType Value}

namespace Mirrored

theorem guids (valid : Mirrored json stores) :
    stores.tables.queue.map SqlCommonDbOddJobMetaData.jobGuid = stores.added.map Prod.fst := by
  rw [← valid.known, List.map_map]
  rfl

theorem jobIds (valid : Mirrored json stores) :
    (stored json stores.file).map FileSystemJobMetaData.jobId =
      stores.tables.queue.map SqlCommonDbOddJobMetaData.jobGuid := by
  have ids : ((stored json stores.file).map FileSystemJobMetaData.entry).map Entry.jobId =
      stores.tables.queue.map SqlCommonDbOddJobMetaData.jobGuid := by
    rw [← List.forall₂_eq_eq_eq, List.forall₂_map_left_iff, List.forall₂_map_right_iff]
    exact valid.rowwise.imp fun e row mirror => mirror.jobId
  rw [List.map_map] at ids
  exact ids

theorem exists_row (valid : Mirrored json stores) {e : Entry}
    (member : e ∈ (stored json stores.file).map FileSystemJobMetaData.entry) :
    ∃ row, Mirror e row := by
  obtain ⟨place, inside, rfl⟩ := List.getElem_of_mem member
  have even := valid.rowwise.length_eq
  exact ⟨_, valid.rowwise.get inside (even ▸ inside)⟩

theorem jobGuids_nodup (valid : Mirrored json stores) :
    (stores.tables.queue.map SqlCommonDbOddJobMetaData.jobGuid).Nodup := by
  rw [valid.guids]
  exact valid.distinct

theorem jobIds_nodup (valid : Mirrored json stores) :
    ((stored json stores.file).map FileSystemJobMetaData.jobId).Nodup := by
  rw [valid.jobIds]
  exact valid.jobGuids_nodup

/-- An operation that changes the list leaves the changed list in the file. -/
theorem perform (valid : Mirrored json stores) (keeps : json.Keeps)
    {changed returned : List (FileSystemJobMetaData CliType Value)}
    (created : call.operation.fileMode = .openExisting → stores.file ≠ none)
    (done : call.operation.run (stored json stores.file) = .ok (changed, returned))
    (rewrites : call.operation.writes = true) (comparable : Comparable json decoder stores call) :
    ∃ toWrite, call.operation.perform json stores.file = (some toWrite, .ok returned) ∧
      (∀ toRead ∈ some toWrite,
        json.deserializeObject toRead = .ok (some (stored json (some toWrite)))) ∧
      (stored json (some toWrite)).map FileSystemJobMetaData.entry =
        changed.map FileSystemJobMetaData.entry := by
  obtain ⟨toWrite, encoded, written⟩ :=
    stored_of_storable keeps (storable_of_run keeps comparable.kept comparable.added done)
  exact ⟨toWrite, perform_of_run keeps valid.readable created done rewrites encoded, written⟩

omit [LinearOrder Key] in
/-- A call that appends an entry and a row for the same new job. -/
theorem append (valid : Mirrored json stores) {file : Option (List UInt8)} {tables : Tables}
    {e : Entry} {row : SqlCommonDbOddJobMetaData}
    (readable : ∀ toRead ∈ file, json.deserializeObject toRead = .ok (some (stored json file)))
    (entries : (stored json file).map FileSystemJobMetaData.entry =
      (stored json stores.file).map FileSystemJobMetaData.entry ++ [e])
    (rows : tables.queue = stores.tables.queue ++ [row])
    (nextId : tables.nextId = stores.tables.nextId + 1) (id : row.id = stores.tables.nextId)
    (fresh : row.jobGuid ∉ stores.added.map Prod.fst) (mirror : Mirror e row) :
    Mirrored json { stores with
      file
      tables
      added := stores.added ++ [(row.jobGuid, row.doNotExecuteBefore)] } := by
  refine ⟨readable, ?_, ?_, ?_, ?_, ?_⟩
  · change List.Forall₂ Mirror ((stored json file).map FileSystemJobMetaData.entry) tables.queue
    rw [entries, rows]
    exact List.rel_append valid.rowwise (.cons mirror .nil)
  · change tables.queue.map _ = _
    rw [rows, List.map_append, valid.known]
    rfl
  · rw [List.map_append, List.nodup_append]
    refine ⟨valid.distinct, List.nodup_singleton _, ?_⟩
    rintro jobId member other single rfl
    have own : jobId = row.jobGuid := List.mem_singleton.mp single
    exact fresh (own ▸ member)
  · change (tables.queue.map SqlCommonDbOddJobMetaData.id).Nodup
    rw [rows, List.map_append, List.nodup_append]
    refine ⟨valid.ids, List.nodup_singleton _, ?_⟩
    rintro rowId member other single rfl
    obtain ⟨older, present, same⟩ := List.mem_map.mp member
    have own : older.id = stores.tables.nextId :=
      same.trans ((List.mem_singleton.mp single).trans id)
    exact absurd own (valid.bounded older present).ne
  · intro other member
    change other ∈ tables.queue at member
    change other.id < tables.nextId
    rw [nextId]
    rw [rows] at member
    rcases List.mem_append.mp member with older | newer
    · exact Int.lt_add_one_of_le (valid.bounded other older).le
    · rw [List.mem_singleton.mp newer, id]
      exact Int.lt_succ stores.tables.nextId

omit [LinearOrder Key] in
/-- A call that rewrites entries and rows alike, but neither ids nor execution times. -/
theorem rewrite (valid : Mirrored json stores) {file : Option (List UInt8)} {tables : Tables}
    {fetches : List (Fetch CliType Value)} {f : Entry → Entry}
    {g : SqlCommonDbOddJobMetaData → SqlCommonDbOddJobMetaData}
    (readable : ∀ toRead ∈ file, json.deserializeObject toRead = .ok (some (stored json file)))
    (entries : (stored json file).map FileSystemJobMetaData.entry =
      ((stored json stores.file).map FileSystemJobMetaData.entry).map f)
    (rows : tables.queue = stores.tables.queue.map g)
    (nextId : tables.nextId = stores.tables.nextId)
    (columns : ∀ row, (g row).id = row.id ∧ (g row).jobGuid = row.jobGuid ∧
      (g row).doNotExecuteBefore = row.doNotExecuteBefore)
    (kept : ∀ e, ∀ row ∈ stores.tables.queue, Mirror e row → Mirror (f e) (g row)) :
    Mirrored json { stores with file, tables, fetches } := by
  refine ⟨readable, ?_, ?_, valid.distinct, ?_, ?_⟩
  · change List.Forall₂ Mirror ((stored json file).map FileSystemJobMetaData.entry) tables.queue
    rw [entries, rows]
    exact forall₂_map valid.rowwise fun e _ row member mirror => kept e row member mirror
  · change tables.queue.map _ = stores.added
    rw [rows, List.map_map, ← valid.known]
    apply List.map_congr_left
    intro row _
    simp only [Function.comp_apply, (columns row).2.1, (columns row).2.2]
  · change (tables.queue.map SqlCommonDbOddJobMetaData.id).Nodup
    have same : tables.queue.map SqlCommonDbOddJobMetaData.id =
        stores.tables.queue.map SqlCommonDbOddJobMetaData.id := by
      rw [rows, List.map_map]
      exact List.map_congr_left fun row _ => (columns row).1
    exact same ▸ valid.ids
  · intro row member
    change row ∈ tables.queue at member
    change row.id < tables.nextId
    rw [rows] at member
    obtain ⟨old, present, rfl⟩ := List.mem_map.mp member
    rw [(columns old).1, nextId]
    exact valid.bounded old present

theorem addJob (valid : Mirrored json stores) (keeps : json.Keeps)
    {settings : SerializableJobCreator.Settings CliType} {jobData : OddJob CliType Value}
    {wire : SerializableOddJob} {now : Ticks}
    (comparable : Comparable json decoder stores
      (.addJob settings jobData wire now : Call Key CliType Value))
    (taken : step json decoder stores (.addJob settings jobData wire now : Call Key CliType Value) =
      some after) :
    Mirrored json after ∧ after.fetches = stores.fetches ∧
      ∀ entry ∈ stores.added, entry ∈ after.added := by
  obtain ⟨toWrite, performed, readable, entries⟩ :=
    valid.perform keeps (fun existing => by cases existing) rfl rfl comparable
  simp only [step, performed] at taken
  split at taken
  · rename_i guard
    obtain ⟨defined, fresh⟩ := guard
    cases taken
    have untouched : updateWhere (fun q => decide (q.id = stores.tables.nextId))
        (fun q : SqlCommonDbOddJobMetaData => { q with status := .new }) stores.tables.queue =
          stores.tables.queue := by
      refine (List.map_congr_left fun row member => ?_).trans (List.map_id _)
      rw [if_neg]
      · rfl
      · simpa using (valid.bounded row member).ne
    have queue : (stores.tables.addJob wire now).queue =
        stores.tables.queue ++ [publishedRow wire stores.tables.nextId now] := by
      rw [queue_addJob, untouched]
    have nextId : (stores.tables.addJob wire now).nextId = stores.tables.nextId + 1 := by
      simp [Tables.addJob, Tables.publish, Tables.insertMetaData]
    have mirror := mirror_added jobData settings.retryParameters settings.executionTime wire
      stores.tables.nextId now
    rw [defined.queueName] at mirror
    refine ⟨?_, rfl, fun entry member => List.mem_append_left _ member⟩
    rw [← defined.executionTime]
    refine valid.append readable ?_ queue nextId rfl fresh (mirror _ rfl)
    rw [entries, List.map_append]
    rfl
  · cases taken

omit [LinearOrder Key] in
theorem writeJobState_total {jobId : Guid} {kind : Mark} {now : Ticks}
    {serializer : List (FileSystemJobMetaData CliType Value)}
    (parameters : ∀ q ∈ serializer, q.retryParameters.isSome = true) :
    ∃ changed, writeJobState jobId (transformFunc kind now) serializer = .ok changed := by
  induction serializer with
  | nil => exact ⟨[], rfl⟩
  | cons q rest ih =>
    unfold writeJobState
    split
    · obtain ⟨set, done⟩ : ∃ set, transformFunc kind now q = .ok set := by
        cases kind with
        | markJobInRetryAndIncrement lastAttempt =>
          obtain ⟨own, present⟩ :=
            Option.isSome_iff_exists.mp (parameters q List.mem_cons_self)
          simp only [transformFunc, present]
          exact ⟨_, rfl⟩
        | _ => exact ⟨_, rfl⟩
      exact ⟨set :: rest, by rw [done]; rfl⟩
    · obtain ⟨changed, done⟩ := ih fun other member =>
        parameters other (List.mem_cons_of_mem q member)
      exact ⟨q :: changed, by rw [done]; rfl⟩

theorem mark (valid : Mirrored json stores) (keeps : json.Keeps)
    {kind : Mark} {jobId : Guid} {now : Ticks}
    (comparable : Comparable json decoder stores (.mark kind jobId now : Call Key CliType Value))
    (taken : step json decoder stores (.mark kind jobId now : Call Key CliType Value) =
      some after) :
    Mirrored json after ∧ after.fetches = stores.fetches ∧ after.added = stores.added := by
  have rewritten {file : Option (List UInt8)}
      (readable : ∀ toRead ∈ file, json.deserializeObject toRead = .ok (some (stored json file)))
      (entries : (stored json file).map FileSystemJobMetaData.entry =
        ((stored json stores.file).map FileSystemJobMetaData.entry).map fun e =>
          if e.jobId = jobId then e.marked kind else e) :
      Mirrored json { stores with file, tables := kind.apply jobId now stores.tables } := by
    rw [kind.apply_eq]
    refine valid.rewrite readable entries rfl rfl ?_ ?_
    · intro row
      split
      · exact ⟨kind.set_id now row, kind.set_jobGuid now row, by cases kind <;> rfl⟩
      · exact ⟨rfl, rfl, rfl⟩
    · intro e row _ mirror
      rw [mirror.jobId]
      by_cases own : row.jobGuid = jobId
      · simp only [own, decide_true, if_true]
        exact mirror.marked kind now
      · simp only [own, decide_false, if_false]
        exact mirror
  simp only [step, Option.some.injEq] at taken
  subst taken
  refine ⟨?_, rfl, rfl⟩
  cases created : stores.file with
  | none =>
    -- there is no file, so there is no job either
    have missing : (Call.mark kind jobId now : Call Key CliType Value).operation.perform json none =
        (none, .error .fileNotFound) := rfl
    rw [missing]
    refine rewritten (fun toRead member => by cases member) ?_
    rw [created]
    rfl
  | some content =>
    have present : stores.file ≠ none := by
      rw [created]
      exact Option.some_ne_none content
    rw [← created]
    obtain ⟨changed, done⟩ : ∃ changed, writeJobState jobId (transformFunc kind now)
        (stored json stores.file) = .ok changed := by
      apply writeJobState_total
      intro q member
      have placed := List.mem_map_of_mem (f := FileSystemJobMetaData.entry) member
      obtain ⟨row, mirror⟩ := valid.exists_row placed
      exact mirror.parameters
    have ran : (Call.mark kind jobId now : Call Key CliType Value).operation.run
        (stored json stores.file) = .ok (changed, []) := by
      simp only [Call.operation, Operation.run, done]
      rfl
    obtain ⟨toWrite, performed, readable, entries⟩ :=
      valid.perform keeps (fun _ => present) ran rfl comparable
    rw [performed]
    apply rewritten readable
    rw [entries, entries_writeJobState valid.jobIds_nodup done, List.map_map]
    rfl

/-- A comparable fetch takes the same jobs of both stores, and leaves them as far along. -/
theorem getJobs (valid : Mirrored json stores) (keeps : json.Keeps)
    {claim : Claim Key} {scan : List SqlCommonDbOddJobMetaData}
    {resultSet : List SqlQueueRowSet} (unexpired : Unexpired claim stores.tables.queue)
    (untied : Untied claim stores.tables.queue)
    (comparable : Comparable json decoder stores
      (.getJobs claim scan resultSet : Call Key CliType Value))
    (taken : step json decoder stores (.getJobs claim scan resultSet) = some after) :
    Mirrored json after ∧ after.added = stores.added ∧
      ∃ fetch, after.fetches = stores.fetches ++ [fetch] ∧ Agrees stores.added fetch := by
  simp only [step, Option.ite_none_right_eq_some] at taken
  obtain ⟨⟨order, fresh, returned⟩, taken⟩ := taken
  have alike := comparable.fetch claim scan resultSet rfl
  obtain ⟨filtered, chosen, same⟩ := fetched_of_mirror valid.rowwise valid.ids order unexpired
    untied alike.tests alike.order
  obtain ⟨changed, results, done, ids⟩ : ∃ changed results,
      FileSystem.getJobs claim.queueNames claim.fetchSize (fun _ => claim.lockTime)
        (fun _ => claim.lockTime) (stored json stores.file) = .ok (changed, results) ∧
      results.map FileSystemJobMetaData.jobId = filtered.map fun row => row.1.jobId := by
    refine ⟨_, _, by rw [FileSystem.getJobs, chosen]; rfl, ?_⟩
    rw [List.map_map]
    rfl
  rw [← ids] at same
  have ran : (Call.getJobs claim scan resultSet : Call Key CliType Value).operation.run
      (stored json stores.file) = .ok (changed, results) := done
  obtain ⟨toWrite, performed, readable, entries⟩ :=
    valid.perform keeps (fun _ => alike.created) ran rfl comparable
  have reads : ∀ row ∈ stores.tables.queue, claim.Takes scan row →
      decoder.Reads stores.tables row := fun row member taken =>
    alike.reads row member (claim.chosen_of_takes order valid.ids member taken)
  obtain ⟨jobs, fetched, counted⟩ :=
    getJobs_of_reads valid.jobGuids_nodup fresh returned reads
  rw [performed] at taken
  simp only [Option.some.injEq] at taken
  subst taken
  have takes {row : SqlCommonDbOddJobMetaData} (member : row ∈ stores.tables.queue) :
      row.jobGuid ∈ results.map FileSystemJobMetaData.jobId ↔ claim.Takes scan row := by
    rw [same.mem_iff, List.mem_map]
    constructor
    · rintro ⟨other, chosen, guid⟩
      obtain ⟨present, taken⟩ := List.mem_filter.mp chosen
      obtain rfl : other = row :=
        List.inj_on_of_nodup_map valid.jobGuids_nodup present member guid
      exact of_decide_eq_true taken
    · exact fun taken => ⟨row, List.mem_filter.mpr ⟨member, decide_eq_true taken⟩, rfl⟩
  refine ⟨?_, rfl, _, rfl, results, jobs, rfl, fetched, same.trans counted.symm, ?_⟩
  · refine valid.rewrite readable (f := fun e =>
      if e.jobId ∈ results.map FileSystemJobMetaData.jobId then { e with status := .other "Queued" }
      else e) ?_ (claim.update_eq scan stores.tables.queue) rfl ?_ ?_
    · rw [entries, entries_getJobs valid.jobIds_nodup done, List.map_map]
      rfl
    · intro row
      split <;> exact ⟨rfl, rfl, rfl⟩
    · intro e row member mirror
      have own : e.jobId ∈ results.map FileSystemJobMetaData.jobId ↔ claim.Takes scan row := by
        rw [mirror.jobId]
        exact takes member
      simp only [own]
      split
      · exact mirror.claimed claim
      · exact mirror
  · intro jobId member
    rw [same.mem_iff] at member
    obtain ⟨row, chosen, rfl⟩ := List.mem_map.mp member
    have eligible := (claim.takes_first_eligible order valid.ids).included.subset chosen
    obtain ⟨present, passes⟩ := List.mem_filter.mp eligible
    refine ⟨row.doNotExecuteBefore, ?_, (of_decide_eq_true passes).due⟩
    rw [← valid.known]
    exact List.mem_map.mpr ⟨row, present, rfl⟩

end Mirrored

theorem mirrored_step (valid : Mirrored json stores) (keeps : json.Keeps)
    (assumed : Assumed stores call) (comparable : Comparable json decoder stores call)
    (taken : step json decoder stores call = some after) :
    Mirrored json after ∧ (∀ entry ∈ stores.added, entry ∈ after.added) ∧
      ∀ fetch ∈ after.fetches, fetch ∈ stores.fetches ∨ Agrees after.added fetch := by
  cases call with
  | addJob settings jobData wire now =>
    obtain ⟨kept, same, grown⟩ := valid.addJob keeps comparable taken
    exact ⟨kept, grown, fun fetch member => .inl (same ▸ member)⟩
  | getJobs claim scan resultSet =>
    obtain ⟨kept, same, fetch, grown, agrees⟩ :=
      valid.getJobs keeps assumed.1 assumed.2 comparable taken
    refine ⟨kept, fun entry member => same ▸ member, fun other member => ?_⟩
    rw [grown] at member
    rcases List.mem_append.mp member with older | newer
    · exact .inl older
    · rw [List.mem_singleton.mp newer, same]
      exact .inr agrees
  | mark kind jobId now =>
    obtain ⟨kept, same, unchanged⟩ := valid.mark keeps comparable taken
    exact ⟨kept, fun entry member => unchanged ▸ member, fun fetch member => .inl (same ▸ member)⟩

theorem Agrees.grow {added added' : List (Guid × Option Ticks)} {fetch : Fetch CliType Value}
    (agrees : Agrees added fetch) (grown : ∀ entry ∈ added, entry ∈ added') :
    Agrees added' fetch := by
  obtain ⟨jobs, jobs', fileSystem, sql, same, due⟩ := agrees
  refine ⟨jobs, jobs', fileSystem, sql, same, fun jobId member => ?_⟩
  obtain ⟨executionTime, known, early⟩ := due jobId member
  exact ⟨executionTime, grown _ known, early⟩

theorem mirrored_empty (json : Json CliType Value) : Mirrored json {} where
  readable := by
    rintro _ ⟨⟩
  rowwise := .nil
  known := rfl
  distinct := List.nodup_nil
  ids := List.nodup_nil
  bounded := by
    rintro _ ⟨⟩

end Step

def sampleSettings (executionTime : Option Ticks) :
    SerializableJobCreator.Settings String where
  retryParameters := some { maxRetries := 1, minRetryWait := ticksPerSecond }
  executionTime
  queueName := "default"
  typeNameSerializer name := name.getD ""

def sampleOddJob : OddJob String String where
  jobId := 7
  jobArgs := [{ name := some "order", value := some "12", type := some "Jobs.Order, Jobs" }]
  typeExecutedOn := "Jobs.SampleJob, Jobs"
  methodName := "Add"
  methodGenericTypes := []

def sampleWire (jobId : Guid) (executionTime : Option Ticks) : SerializableOddJob where
  jobId
  jobArgs := [{ ordinal := 0, name := some "order", value := some "12",
                typeName := some "Jobs.Order, Jobs" }]
  typeExecutedOn := "Jobs.SampleJob, Jobs"
  methodName := "Add"
  status := .new
  methodGenericTypes := []
  retryParameters := some { maxRetries := 1, minRetryWait := ticksPerSecond }
  executionTime
  queueName := "default"

/-- A call that is made with the stores as they are. -/
abbrev Client := Stores String String → Call Int String String

def adding (jobId : Guid) (executionTime : Option Ticks) (now : Ticks) : Client := fun _ =>
  .addJob (sampleSettings executionTime) sampleOddJob (sampleWire jobId executionTime) now

/-- The two oldest jobs are fetched. -/
def fetching (lockGuid : Guid) (lockTime : Ticks) : Client := fun stores =>
  let claim : Claim Int := { fetchClaim with fetchSize := 2, lockGuid, lockTime }
  let tables := claimTables claim stores.tables.queue stores.tables
  .getJobs claim stores.tables.queue
    (joinQuery (tables.queue.filter fun q => q.lockGuid = some lockGuid) tables)

def marking (mark : Mark) (jobId : Guid) (now : Ticks) : Client := fun _ => .mark mark jobId now

def sampleStep : Stores String String → Call Int String String → Option (Stores String String) :=
  step sampleJson (textDecoder fun text => text = "12")

theorem sampleJson_keeps : sampleJson.Keeps where
  empty := sampleJson_preserves.empty
  list jobs _ :=
    have ⟨again, decoded, same⟩ := sampleJson_preserves.entries jobs _ rfl
    ⟨_, again, rfl, decoded, same⟩
  arguments _ other _ _ _ _ :=
    have ⟨again, decoded, _⟩ := sampleJson_preserves.entries [other] _ rfl
    ⟨_, again, rfl, decoded⟩

/-- What the clients call, one after another. -/
def callsOf (clients : List Client) : List (Call Int String String) :=
  (clients.foldl (fun (stores, calls) call =>
    ((sampleStep stores (call stores)).getD stores, calls ++ [call stores])) ({}, [])).2

/-- Three jobs of which two are fetched at 100; the one that failed is tried again after its
wait of a second. -/
def sampleClients : List Client := [
  adding 7 none 70, adding 8 none 80, adding 9 (some 95) 90,
  fetching 40 100,
  marking .markJobInProgress 7 110, marking .markJobInProgress 8 110,
  marking (.markJobInRetryAndIncrement 120) 7 120, marking .markJobSuccess 8 130,
  fetching 41 200,
  marking .markJobFailed 9 210,
  fetching 42 300, fetching 43 (ticksPerSecond + 200)]

/-- The time of a fetch, and the ids that either store returned. -/
def Fetch.ids (fetch : Fetch String String) :
    Ticks × Except ClrException (List Guid) × Except ClrException (List Guid) :=
  (fetch.now, fetch.fileSystem.map (List.map FileSystemJobMetaData.jobId),
    fetch.sql.map (List.map SqlDbOddJob.jobId))

end Stores

end OddJob.FileSystem
