import OddJob.FileSystem.Engines

/-! Whose hands a job in the file is in: nobody's while it waits, and once it is fetched those
of one process, until the last mark for it. Nothing here depends on how long anything takes. -/

namespace OddJob.FileSystem

open Akka Transition

variable {CliType Value : Type}

namespace Process

/-- The jobs that the process has fetched and not marked for the last time. -/
def hands (process : Process CliType Value) : List (FileSystemJobMetaData CliType Value) :=
  process.results.getD [] ++ process.engine.held.map Prod.fst

/-- The jobs that the process has ever fetched, once for every time. -/
def fetched (process : Process CliType Value) : List (FileSystemJobMetaData CliType Value) :=
  process.results.getD [] ++ process.engine.taken

end Process

namespace Engines

def entries (engines : Engines CliType Value) : List Entry :=
  engines.serializer.map FileSystemJobMetaData.entry

def hands (engines : Engines CliType Value) : List (FileSystemJobMetaData CliType Value) :=
  engines.processes.flatMap Process.hands

def fetched (engines : Engines CliType Value) : List (FileSystemJobMetaData CliType Value) :=
  engines.processes.flatMap Process.fetched

/-- The ids of the jobs that `ExecuteJob` is working on, in any process. -/
def executing (engines : Engines CliType Value) : List Guid :=
  engines.processes.flatMap fun process =>
    process.engine.executing.map fun request => request.jobData.jobId

/-- The calls of `ExecuteJob` for one job, in any process. -/
def executionsOf (engines : Engines CliType Value) (jobId : Guid) : Nat :=
  (engines.processes.flatMap fun process =>
    process.engine.began.map fun request => request.jobData.jobId).count jobId

/-- The entry is that of a job which was fetched and not marked for the last time. -/
def Busy (e : Entry) : Prop := e.status = .other "Queued" ∨ e.status = .other "In-Progress"

theorem Busy.rests {e : Entry} (busy : Busy e) : ¬e.Waits := by
  rcases busy with status | status <;> simp [Entry.Waits, status]

/-- Every fetched job is in one hand, whose copy knows the retries in the file. -/
structure Custody (engines : Engines CliType Value) : Prop where
  sound : ∀ process ∈ engines.processes, ∃ queueName numWorkers aggressiveSweep,
    Reaches Engine.step anyAction
      (Engine.configured queueName numWorkers aggressiveSweep) process.engine
  ids : engines.entries.map Entry.jobId = engines.added.map Prod.fst
  distinct : (engines.added.map Prod.fst).Nodup
  alone : (engines.hands.map FileSystemJobMetaData.jobId).Nodup
  known : ∀ copy ∈ engines.hands, ∃ e ∈ engines.entries, e.jobId = copy.jobId ∧
    e.retryParameters = copy.retryParameters ∧ Busy e
  origin : ∀ copy ∈ engines.fetched, copy.jobId ∈ engines.added.map Prod.fst

variable {engines after final : Engines CliType Value} {action : EnginesAction CliType Value}
  {index : Nat} {process changed : Process CliType Value}

theorem process_of_running (found : engines.running index = some process) :
    engines.processes[index]? = some process ∧ process.crashed = false := by
  obtain ⟨found, alive⟩ := Option.filter_eq_some_iff.mp found
  exact ⟨found, by simpa using alive⟩

theorem hands_update {lost gained : List (FileSystemJobMetaData CliType Value)}
    (found : engines.processes[index]? = some process)
    (change : (lost ++ changed.hands).Subperm (gained ++ process.hands)) :
    (lost ++ (engines.update index changed).hands).Subperm (gained ++ engines.hands) :=
  flatMap_set_subperm Process.hands found change

theorem fetched_update {gained : List (FileSystemJobMetaData CliType Value)}
    (found : engines.processes[index]? = some process)
    (change : changed.fetched.Subperm (gained ++ process.fetched)) :
    (engines.update index changed).fetched.Subperm (gained ++ engines.fetched) :=
  @flatMap_set_subperm _ _ _ _ _ _ [] gained Process.fetched found change

/-- A `GetJobs` returns the jobs as they wait in the file. -/
theorem waiting_of_getJobs {queueNames : List String} {fetchSize : Int}
    {now queueTime : Nat → Ticks}
    {serializer after results : List (FileSystemJobMetaData CliType Value)}
    (done : FileSystem.getJobs queueNames fetchSize now queueTime serializer =
      .ok (after, results)) :
    ∀ copy ∈ results, ∃ q ∈ serializer, q.jobId = copy.jobId ∧
      q.retryParameters = copy.retryParameters ∧ q.entry.Waits := by
  intro copy member
  obtain ⟨filtered, taken, rfl, rfl⟩ := getJobs_eq_ok done
  obtain ⟨row, listed, rfl⟩ := List.mem_map.mp member
  obtain ⟨rows, waiting⟩ := fetched_rows taken
  have present : row.1 ∈ serializer.zipIdx.map Prod.fst :=
    List.mem_map_of_mem (rows.subset listed)
  rw [List.zipIdx_map_fst] at present
  exact ⟨row.1, present, rfl, rfl, waiting row listed⟩

namespace Custody

theorem idsNodup (valid : Custody engines) :
    (engines.serializer.map FileSystemJobMetaData.jobId).Nodup := by
  have same : engines.serializer.map FileSystemJobMetaData.jobId =
      engines.entries.map Entry.jobId := by
    rw [entries, List.map_map]
    rfl
  rw [same, valid.ids]
  exact valid.distinct

theorem entry_unique (valid : Custody engines) {e other : Entry} (member : e ∈ engines.entries)
    (listed : other ∈ engines.entries) (same : e.jobId = other.jobId) : e = other := by
  have nodup : (engines.entries.map Entry.jobId).Nodup := valid.ids ▸ valid.distinct
  exact List.inj_on_of_nodup_map nodup member listed same

theorem tracked (valid : Custody engines) (found : engines.processes[index]? = some process) :
    Tracked process.engine ∧ Told process.engine ∧ process.engine.InOrder ∧
      Begun process.engine := by
  obtain ⟨_, _, _, reached⟩ := valid.sound process (List.mem_of_getElem? found)
  exact ⟨tracked_of_reaches reached, told_of_reaches reached, inOrder_of_reaches reached,
    begun_of_reaches reached⟩

theorem entries_fetched (valid : Custody engines) {queueNames : List String}
    {fetchSize : Int} {now queueTime : Nat → Ticks}
    {serializer results : List (FileSystemJobMetaData CliType Value)}
    (done : FileSystem.getJobs queueNames fetchSize now queueTime engines.serializer =
      .ok (serializer, results)) :
    serializer.map FileSystemJobMetaData.entry = engines.entries.map fun e =>
      if e.jobId ∈ results.map FileSystemJobMetaData.jobId then
        { e with status := .other "Queued" }
      else e := by
  rw [entries_getJobs valid.idsNodup done, Engines.entries, List.map_map]
  rfl

theorem entries_marked (valid : Custody engines) {jobId : Guid} {mark : Mark} {now : Ticks}
    {serializer : List (FileSystemJobMetaData CliType Value)}
    (done : writeJobState jobId (transformFunc mark now) engines.serializer = .ok serializer) :
    serializer.map FileSystemJobMetaData.entry = engines.entries.map fun e =>
      if e.jobId = jobId then e.marked mark else e := by
  rw [entries_writeJobState valid.idsNodup done, Engines.entries, List.map_map]
  rfl

private theorem reached_next (valid : Custody engines)
    (found : engines.processes[index]? = some process)
    {action : Akka.Action (FileSystemJobMetaData CliType Value)}
    {engine : Engine (FileSystemJobMetaData CliType Value)}
    (stepped : process.engine.step action = some engine) :
    ∃ queueName numWorkers aggressiveSweep, Reaches Engine.step anyAction
      (Engine.configured queueName numWorkers aggressiveSweep) engine := by
  obtain ⟨queueName, numWorkers, aggressiveSweep, reached⟩ :=
    valid.sound process (List.mem_of_getElem? found)
  exact ⟨queueName, numWorkers, aggressiveSweep, reached.next trivial stepped⟩

private theorem sound_update (valid : Custody engines)
    (reached : ∃ queueName numWorkers aggressiveSweep, Reaches Engine.step anyAction
      (Engine.configured queueName numWorkers aggressiveSweep) changed.engine) :
    ∀ other ∈ (engines.update index changed).processes,
      ∃ queueName numWorkers aggressiveSweep, Reaches Engine.step anyAction
        (Engine.configured queueName numWorkers aggressiveSweep) other.engine := by
  intro other member
  rcases List.mem_or_eq_of_mem_set member with older | rfl
  · exact valid.sound other older
  · exact reached

private theorem quiet (valid : Custody engines)
    (found : engines.processes[index]? = some process)
    (reached : ∃ queueName numWorkers aggressiveSweep, Reaches Engine.step anyAction
      (Engine.configured queueName numWorkers aggressiveSweep) changed.engine)
    (hands : changed.hands.Subperm process.hands)
    (fetched : changed.fetched.Subperm process.fetched) :
    Custody (engines.update index changed) := by
  have fewer : (engines.update index changed).hands.Subperm engines.hands :=
    @hands_update _ _ _ _ _ _ [] [] found hands
  have least : (engines.update index changed).fetched.Subperm engines.fetched :=
    @fetched_update _ _ _ _ _ _ [] found fetched
  exact {
    sound := valid.sound_update reached
    ids := valid.ids
    distinct := valid.distinct
    alone := nodup_of_subperm (subperm_map _ fewer) valid.alone
    known := fun copy member => valid.known copy (fewer.subset member)
    origin := fun copy member => valid.origin copy (least.subset member) }

private theorem added (valid : Custody engines) {data : FileSystemJobMetaData CliType Value}
    {parameters : RetryParameters} (fresh : data.jobId ∉ engines.added.map Prod.fst) :
    Custody { engines with
      serializer := engines.serializer ++ [data]
      added := engines.added ++ [(data.jobId, parameters)] } where
  sound := valid.sound
  ids := by
    have ids := valid.ids
    rw [entries] at ids ⊢
    rw [List.map_append, List.map_append, List.map_append, ids]
    rfl
  distinct := by
    rw [List.map_append, List.map_singleton, ← List.concat_eq_append]
    exact valid.distinct.concat fresh
  alone := valid.alone
  known copy member := by
    obtain ⟨e, listed, own, same, busy⟩ := valid.known copy member
    refine ⟨e, ?_, own, same, busy⟩
    rw [entries, List.map_append]
    exact List.mem_append_left _ listed
  origin copy member := by
    rw [List.map_append]
    exact List.mem_append_left _ (valid.origin copy member)

private theorem fetched (valid : Custody engines) {request : GetJobs} {now queueTime : Nat → Ticks}
    {serializer results : List (FileSystemJobMetaData CliType Value)}
    (found : engines.processes[index]? = some process) (free : process.results = none)
    (done : FileSystem.getJobs [request.queueName] request.fetchSize now queueTime
      engines.serializer = .ok (serializer, results)) :
    Custody ({ engines with serializer }.update index { process with results := some results }) := by
  have entries := valid.entries_fetched done
  have waiting := waiting_of_getJobs done
  have gained : ({ process with results := some results } : Process CliType Value).hands =
      results ++ process.hands := by
    rw [Process.hands, Process.hands, free]
    rfl
  have more : (engines.update index { process with results := some results }).hands.Subperm
      (results ++ engines.hands) :=
    @hands_update _ _ _ _ _ _ [] results found (gained ▸ List.Subperm.refl _)
  have again : (engines.update index { process with results := some results }).fetched.Subperm
      (results ++ engines.fetched) := by
    refine fetched_update found ?_
    rw [Process.fetched, Process.fetched, free]
    exact List.Subperm.refl _
  have apart : ∀ copy ∈ engines.hands, copy.jobId ∉ results.map FileSystemJobMetaData.jobId := by
    intro copy held listed
    obtain ⟨other, member, same⟩ := List.mem_map.mp listed
    obtain ⟨q, present, own, _, waits⟩ := waiting other member
    obtain ⟨e, present', own', _, busy⟩ := valid.known copy held
    have one := valid.entry_unique (List.mem_map_of_mem present) present'
      (own.trans (same.trans own'.symm))
    exact busy.rests (one ▸ waits)
  refine {
    sound := valid.sound_update (valid.sound process (List.mem_of_getElem? found))
    ids := ?_
    distinct := valid.distinct
    alone := nodup_of_subperm (subperm_map _ more) ?_
    known := fun copy member => ?_
    origin := fun copy member => ?_ }
  · refine Eq.trans ?_ valid.ids
    rw [Engines.entries, update, entries, List.map_map]
    refine List.map_congr_left fun e _ => ?_
    rw [Function.comp_apply]
    split <;> rfl
  · rw [List.map_append]
    refine List.nodup_append.mpr
      ⟨(returned_getJobs valid.idsNodup done).1, valid.alone, fun id listed other held => ?_⟩
    obtain ⟨copy, member, rfl⟩ := List.mem_map.mp held
    rintro rfl
    exact apart copy member listed
  · rw [Engines.entries, update, entries]
    rcases List.mem_append.mp (more.subset member) with newer | older
    · obtain ⟨q, present, own, same, _⟩ := waiting copy newer
      have listed : q.entry.jobId ∈ results.map FileSystemJobMetaData.jobId :=
        List.mem_map.mpr ⟨copy, newer, own.symm⟩
      refine ⟨_, List.mem_map_of_mem (List.mem_map_of_mem present), ?_⟩
      rw [if_pos listed]
      exact ⟨own, same, .inl rfl⟩
    · obtain ⟨e, present, own, same, busy⟩ := valid.known copy older
      refine ⟨_, List.mem_map_of_mem present, ?_⟩
      rw [if_neg (own.symm ▸ apart copy older)]
      exact ⟨own, same, busy⟩
  · rcases List.mem_append.mp (again.subset member) with newer | older
    · obtain ⟨q, present, own, _⟩ := waiting copy newer
      have listed : q.entry.jobId ∈ engines.entries.map Entry.jobId :=
        List.mem_map_of_mem (List.mem_map_of_mem present)
      rw [valid.ids] at listed
      exact own ▸ listed
    · exact valid.origin copy older

/-- What the process is about to say of a job that it has in its hands. -/
structure Speaks (process changed : Process CliType Value) (command : Command)
    (job : FileSystemJobMetaData CliType Value) : Prop where
  held : job ∈ process.hands
  id : command.jobId = job.jobId
  kind : Front process.engine command job
  hands : changed.hands.Subperm process.hands
  fetched : changed.fetched.Subperm process.fetched
  last : command.mark ≠ .markJobInProgress → (job :: changed.hands).Subperm process.hands

theorem speaks (valid : Custody engines) {command : Command} {rest : List LayerMessage}
    {engine : Engine (FileSystemJobMetaData CliType Value)}
    (found : engines.processes[index]? = some process)
    (front : process.engine.layer = .command command :: rest)
    (taken : process.engine.step .layerReceive = some engine) :
    ∃ job, Speaks process { process with engine } command job := by
  obtain ⟨_, told, inOrder, _⟩ := valid.tracked found
  obtain ⟨job, listed, id, kind⟩ := held_of_front told inOrder front
  have same := processed_of_front front taken
  have fewer : engine.held.Sublist
      (process.engine.held ++ [].zipIdx process.engine.taken.length) :=
    Engine.held_sublist (by rw [same, List.append_nil]) (by rw [same]; exact List.prefix_append _ _)
  rw [List.zipIdx_nil, List.append_nil] at fewer
  refine ⟨job, ?_, id, kind, ?_, ?_, fun last => ?_⟩
  · exact List.mem_append_right _ (List.mem_map_of_mem listed)
  · exact ((fewer.map Prod.fst).append_left _).subperm
  · rw [Process.fetched, Process.fetched, same]
  · have gone := subperm_map Prod.fst (held_of_last front taken listed last)
    exact List.perm_middle.symm.subperm.trans ((List.subperm_append_left _).mpr gone)

private theorem marked (valid : Custody engines) {command : Command}
    {engine : Engine (FileSystemJobMetaData CliType Value)}
    {job : FileSystemJobMetaData CliType Value} {now : Ticks}
    {serializer : List (FileSystemJobMetaData CliType Value)}
    (found : engines.processes[index]? = some process)
    (speaks : Speaks process { process with engine } command job)
    (taken : process.engine.step .layerReceive = some engine)
    (done : writeJobState command.jobId (transformFunc command.mark now) engines.serializer =
      .ok serializer) :
    Custody ({ engines with serializer }.update index { process with engine }) := by
  have entries := valid.entries_marked done
  have still : Custody (engines.update index { process with engine }) :=
    valid.quiet found (valid.reached_next found taken) speaks.hands speaks.fetched
  refine {
    sound := still.sound
    ids := ?_
    distinct := valid.distinct
    alone := still.alone
    known := fun copy member => ?_
    origin := still.origin }
  · refine Eq.trans ?_ valid.ids
    rw [Engines.entries, update, entries, List.map_map]
    refine List.map_congr_left fun e _ => ?_
    rw [Function.comp_apply]
    split
    · exact e.marked_jobId _
    · rfl
  · rw [Engines.entries, update, entries]
    obtain ⟨e, present, own, same, busy⟩ := still.known copy member
    refine ⟨_, List.mem_map_of_mem present, ?_⟩
    split
    · rename_i spoken
      by_cases first : command.mark = .markJobInProgress
      · rw [first]
        exact ⟨own, same, .inr rfl⟩
      · -- the job has just left the only hand it was in
        have alone := nodup_of_subperm
          (subperm_map _ (@hands_update _ _ _ _ _ _ [job] [] found (speaks.last first))) valid.alone
        refine absurd ?_ (List.nodup_cons.mp alone).1
        rw [← speaks.id, ← spoken, own]
        exact List.mem_map_of_mem member
    · exact ⟨own, same, busy⟩

theorem moves (valid : Custody engines) (move : Moves engines action after) : Custody after := by
  cases move with
  | added _ data parameters fresh new given => exact valid.added fresh
  | crashed index process running =>
    obtain ⟨found, _⟩ := process_of_running running
    exact valid.quiet found (valid.sound process (List.mem_of_getElem? found))
      (List.Subperm.refl _) (List.Subperm.refl _)
  | acted index process action engine running inside stepped =>
    obtain ⟨found, _⟩ := process_of_running running
    obtain ⟨taken, held⟩ := held_of_step (valid.tracked found).1 stepped inside
    refine valid.quiet found (valid.reached_next found stepped) ?_ ?_
    · rw [Process.hands, Process.hands, held]
    · rw [Process.fetched, Process.fetched, taken]
  | fetched index process request now queueTime serializer results running free done =>
    exact valid.fetched (process_of_running running).1 free done
  | replied index process results engine running returned stepped =>
    obtain ⟨found, _⟩ := process_of_running running
    obtain ⟨taken, held⟩ := held_of_layerReply stepped
    refine valid.quiet found (valid.reached_next found stepped) ?_ ?_
    · rw [Process.hands, Process.hands, returned]
      exact held
    · rw [Process.fetched, Process.fetched, returned]
      exact taken
  | threw index process engine running stepped =>
    obtain ⟨found, _⟩ := process_of_running running
    obtain ⟨taken, held⟩ := held_of_layerReply stepped
    refine valid.quiet found (valid.reached_next found stepped) ?_ ?_
    · exact held.trans (List.sublist_append_right _ _).subperm
    · exact taken.trans (List.sublist_append_right _ _).subperm
  | marked index process command rest engine now serializer running front stepped done =>
    obtain ⟨found, _⟩ := process_of_running running
    obtain ⟨job, speaks⟩ := valid.speaks found front stepped
    exact valid.marked found speaks stepped done
  | lost index process command rest engine now reaches running front stepped failed =>
    obtain ⟨found, _⟩ := process_of_running running
    obtain ⟨job, speaks⟩ := valid.speaks found front stepped
    exact valid.quiet found (valid.reached_next found stepped) speaks.hands speaks.fetched

theorem configured (settings : List ProcessSettings) :
    Custody (Engines.configured settings : Engines CliType Value) := by
  have none (process) (member : process ∈ (Engines.configured settings :
      Engines CliType Value).processes) : process.hands = [] ∧ process.fetched = [] := by
    obtain ⟨_, _, rfl⟩ := List.mem_map.mp member
    exact ⟨rfl, rfl⟩
  have hands : (Engines.configured settings : Engines CliType Value).hands = [] :=
    List.flatMap_eq_nil_iff.mpr fun process member => (none process member).1
  have fetched : (Engines.configured settings : Engines CliType Value).fetched = [] :=
    List.flatMap_eq_nil_iff.mpr fun process member => (none process member).2
  refine ⟨fun process member => ?_, rfl, List.nodup_nil, ?_, ?_, ?_⟩
  · obtain ⟨given, _, rfl⟩ := List.mem_map.mp member
    exact ⟨given.queueName, given.numWorkers, given.aggressiveSweep, .refl⟩
  · rw [hands]
    exact List.nodup_nil
  · rw [hands]
    exact fun copy member => nomatch member
  · rw [fetched]
    exact fun copy member => nomatch member

end Custody

theorem custody_of_reaches {settings : List ProcessSettings}
    {allowed : Engines CliType Value → EnginesAction CliType Value → Prop}
    (reached : Reaches step allowed (configured settings) engines) : Custody engines :=
  reached.invariant (Custody.configured settings)
    fun _ _ _ valid _ taken => valid.moves (moves_of_step taken)

/-- However late anything happens, a job is executed by one process at a time, and by none
while it waits in the file for another. -/
theorem executes_one_at_a_time {settings : List ProcessSettings}
    (reached : Reaches step anyAction (configured settings) engines) :
    engines.executing.Nodup ∧ ∀ q ∈ engines.serializer, q.status = .new ∨ q.status = .retry →
      q.jobId ∉ engines.executing := by
  have valid := custody_of_reaches reached
  have within : engines.executing.Subperm (engines.hands.map FileSystemJobMetaData.jobId) := by
    rw [executing, hands, List.map_flatMap]
    refine flatMap_subperm fun process member => ?_
    obtain ⟨index, found⟩ := List.mem_iff_getElem?.mp member
    obtain ⟨tracked, told, inOrder, _⟩ := valid.tracked found
    have held := subperm_map (fun entry => entry.1.jobId) (executing_held tracked told inOrder)
    rw [List.map_map] at held
    rw [Process.hands, List.map_append, List.map_map]
    exact held.trans (List.sublist_append_right _ _).subperm
  refine ⟨nodup_of_subperm within valid.alone, fun q present waits running => ?_⟩
  obtain ⟨copy, held, same⟩ := List.mem_map.mp (within.subset running)
  obtain ⟨e, listed, own, _, busy⟩ := valid.known copy held
  have one := valid.entry_unique (List.mem_map_of_mem present) listed (same.symm.trans own.symm)
  exact busy.rests (one ▸ waits)

/-- So many fetches of a job are paid for by its retries so far; one that waits has another
coming. -/
def Paid (parameters : RetryParameters) (times : Nat) (e : Entry) : Prop :=
  ∃ current, e.retryParameters = some current ∧ current.maxRetries = parameters.maxRetries ∧
    current.retryCount ≤ max parameters.maxRetries parameters.retryCount ∧
    (times : Int) ≤ current.retryCount - parameters.retryCount + 1 ∧
    (e.Waits → (times : Int) ≤ current.retryCount - parameters.retryCount)

/-- How often a job was fetched, in any process. -/
def fetches (engines : Engines CliType Value) (jobId : Guid) : Nat :=
  (engines.fetched.map FileSystemJobMetaData.jobId).count jobId

def Ledger (engines : Engines CliType Value) : Prop :=
  ∀ e ∈ engines.entries, ∀ parameters : RetryParameters, (e.jobId, parameters) ∈ engines.added →
    parameters.maxRetries ≤ 2147483647 → Paid parameters (engines.fetches e.jobId) e

private theorem Paid.mono {parameters : RetryParameters} {times fewer : Nat} {e : Entry}
    (paid : Paid parameters times e) (least : fewer ≤ times) : Paid parameters fewer e := by
  obtain ⟨current, given, limit, within, spent, waits⟩ := paid
  exact ⟨current, given, limit, within, by omega, fun waiting => by have := waits waiting; omega⟩

private theorem fetches_update {gained : List (FileSystemJobMetaData CliType Value)}
    (found : engines.processes[index]? = some process)
    (change : changed.fetched.Subperm (gained ++ process.fetched)) (jobId : Guid) :
    (engines.update index changed).fetches jobId ≤
      (gained.map FileSystemJobMetaData.jobId).count jobId + engines.fetches jobId := by
  have more := subperm_map FileSystemJobMetaData.jobId (fetched_update found change)
  rw [List.map_append] at more
  exact (more.count_le jobId).trans_eq List.count_append

private theorem Front.more {engine : Engine (FileSystemJobMetaData CliType Value)}
    {command : Command} {job : FileSystemJobMetaData CliType Value} {lastAttempt : Ticks}
    (kind : Front engine command job)
    (retry : command.mark = .markJobInRetryAndIncrement lastAttempt) :
    ∃ parameters, job.retryParameters = some parameters ∧
      parameters.retryCount < parameters.maxRetries := by
  cases kind with
  | inProgress mark => exact nomatch mark.symm.trans retry
  | missing mark => exact nomatch mark.symm.trans retry
  | terminal outcome now mark =>
    have told := mark.symm.trans retry
    unfold Engine.terminalMark at told
    split at told
    · cases told
    · split at told
      · cases told
      · rename_i more
        unfold Engine.exhausted at more
        cases given : job.retryParameters with
        | none => simp [OddJobWithMetadata.retryParameters, given] at more
        | some parameters =>
          simp only [OddJobWithMetadata.retryParameters, given, decide_eq_true_eq,
            not_le] at more
          exact ⟨parameters, rfl, more⟩

namespace Ledger

private theorem quiet (valid : Ledger engines)
    (found : engines.processes[index]? = some process)
    (fetched : changed.fetched.Subperm process.fetched) : Ledger (engines.update index changed) := by
  intro e member parameters given limit
  refine (valid e member parameters given limit).mono ?_
  have fewer := @fetches_update _ _ _ _ _ _ [] found fetched e.jobId
  rwa [List.map_nil, List.count_nil, Nat.zero_add] at fewer

private theorem added (valid : Ledger engines) (custody : Custody engines)
    {data : FileSystemJobMetaData CliType Value} {parameters : RetryParameters}
    (fresh : data.jobId ∉ engines.added.map Prod.fst)
    (given : data.retryParameters = some parameters) :
    Ledger { engines with
      serializer := engines.serializer ++ [data]
      added := engines.added ++ [(data.jobId, parameters)] } := by
  intro e member others listed limit
  rw [entries, List.map_append] at member
  rcases List.mem_append.mp member with older | newer
  · rcases List.mem_append.mp listed with known | own
    · exact valid e older others known limit
    · have id : e.jobId = data.jobId := congrArg Prod.fst (List.mem_singleton.mp own)
      have known : e.jobId ∈ engines.added.map Prod.fst := custody.ids ▸ List.mem_map_of_mem older
      exact absurd (id ▸ known) fresh
  · obtain rfl := List.mem_singleton.mp newer
    have unfetched : engines.fetches data.jobId = 0 := by
      refine List.count_eq_zero_of_not_mem fun listed => ?_
      obtain ⟨copy, member, same⟩ := List.mem_map.mp listed
      exact fresh (same ▸ custody.origin copy member)
    rcases List.mem_append.mp listed with known | own
    · exact absurd (List.mem_map_of_mem known) fresh
    · obtain rfl : others = parameters := congrArg Prod.snd (List.mem_singleton.mp own)
      refine ⟨others, given, rfl, le_max_right _ _, ?_⟩
      have none : ({ engines with
          serializer := engines.serializer ++ [data]
          added := engines.added ++ [(data.jobId, others)] } : Engines CliType Value).fetches
            data.entry.jobId = 0 := unfetched
      rw [none]
      exact ⟨by simp, fun _ => by simp⟩

private theorem fetched (valid : Ledger engines) (custody : Custody engines) {request : GetJobs}
    {now queueTime : Nat → Ticks}
    {serializer results : List (FileSystemJobMetaData CliType Value)}
    (found : engines.processes[index]? = some process) (free : process.results = none)
    (done : FileSystem.getJobs [request.queueName] request.fetchSize now queueTime
      engines.serializer = .ok (serializer, results)) :
    Ledger ({ engines with serializer }.update index { process with results := some results }) := by
  intro later member parameters given limit
  rw [Engines.entries, update, custody.entries_fetched done] at member
  obtain ⟨e, present, rfl⟩ := List.mem_map.mp member
  have more := @fetches_update _ _ _ _ _ { process with results := some results } results found
    (by rw [Process.fetched, Process.fetched, free]; exact List.Subperm.refl _) e.jobId
  split at given
  · rename_i listed
    rw [if_pos listed]
    obtain ⟨copy, taken, same⟩ := List.mem_map.mp listed
    obtain ⟨q, stored, own, _, waits⟩ := waiting_of_getJobs done copy taken
    obtain rfl : q.entry = e :=
      custody.entry_unique (List.mem_map_of_mem stored) present (own.trans same)
    obtain ⟨current, retries, maxRetries, within, _, coming⟩ :=
      valid _ present parameters given limit
    have once := List.nodup_iff_count_le_one.mp (returned_getJobs custody.idsNodup done).1
      q.entry.jobId
    have paid := coming waits
    refine ⟨current, retries, maxRetries, within, ?_, fun waiting => ?_⟩
    · exact (Int.ofNat_le.mpr more).trans (by push_cast; omega)
    · simp [Entry.Waits] at waiting
  · rename_i unlisted
    rw [if_neg unlisted]
    refine (valid e present parameters given limit).mono ?_
    rwa [List.count_eq_zero_of_not_mem unlisted, Nat.zero_add] at more

private theorem marked (valid : Ledger engines) (custody : Custody engines) {command : Command}
    {engine : Engine (FileSystemJobMetaData CliType Value)}
    {job : FileSystemJobMetaData CliType Value} {now : Ticks}
    {serializer : List (FileSystemJobMetaData CliType Value)}
    (found : engines.processes[index]? = some process)
    (speaks : Custody.Speaks process { process with engine } command job)
    (done : writeJobState command.jobId (transformFunc command.mark now) engines.serializer =
      .ok serializer) :
    Ledger ({ engines with serializer }.update index { process with engine }) := by
  have quiet := valid.quiet found speaks.fetched
  intro later member parameters given limit
  rw [Engines.entries, update, custody.entries_marked done] at member
  obtain ⟨e, present, rfl⟩ := List.mem_map.mp member
  split at given
  · rename_i spoken
    rw [if_pos spoken]
    rw [Entry.marked_jobId] at given ⊢
    obtain ⟨current, retries, maxRetries, within, spent, _⟩ :=
      quiet e present parameters given limit
    obtain ⟨other, stored, own, same, _⟩ := custody.known job
      (List.mem_flatMap.mpr ⟨process, List.mem_of_getElem? found, speaks.held⟩)
    obtain rfl : other = e :=
      custody.entry_unique stored present (own.trans (speaks.id.symm.trans spoken.symm))
    cases mark : command.mark with
    | markJobInRetryAndIncrement lastAttempt =>
      obtain ⟨copy, holds, more⟩ := Front.more speaks.kind mark
      obtain rfl : current = copy := Option.some.inj (retries.symm.trans (same.trans holds))
      have counted : increment current.retryCount = current.retryCount + 1 := by
        rw [increment, if_neg (by omega)]
      refine ⟨{ current with
        lastAttempt := some lastAttempt
        retryCount := increment current.retryCount }, ?_, maxRetries, ?_, ?_, fun _ => ?_⟩
      · rw [Entry.marked, retries]
        rfl
      · simp only [counted]
        omega
      · simp only [counted]
        exact spent.trans (by omega)
      · simp only [counted]
        exact spent.trans (by omega)
    | _ => exact ⟨current, retries, maxRetries, within, spent, by simp [Entry.Waits, Entry.marked]⟩
  · rename_i unlike
    rw [if_neg unlike]
    exact quiet e present parameters given limit

theorem moves (valid : Ledger engines) (custody : Custody engines)
    (move : Moves engines action after) : Ledger after := by
  cases move with
  | added _ data parameters fresh new given => exact valid.added custody fresh given
  | crashed index process running =>
    exact valid.quiet (process_of_running running).1 (List.Subperm.refl _)
  | acted index process action engine running inside stepped =>
    obtain ⟨found, _⟩ := process_of_running running
    obtain ⟨taken, _⟩ := held_of_step (custody.tracked found).1 stepped inside
    refine valid.quiet found ?_
    rw [Process.fetched, Process.fetched, taken]
  | fetched index process request now queueTime serializer results running free done =>
    exact valid.fetched custody (process_of_running running).1 free done
  | replied index process results engine running returned stepped =>
    refine valid.quiet (process_of_running running).1 ?_
    rw [Process.fetched, Process.fetched, returned]
    exact (held_of_layerReply stepped).1
  | threw index process engine running stepped =>
    refine valid.quiet (process_of_running running).1 ?_
    exact (held_of_layerReply stepped).1.trans (List.sublist_append_right _ _).subperm
  | marked index process command rest engine now serializer running front stepped done =>
    obtain ⟨found, _⟩ := process_of_running running
    obtain ⟨job, speaks⟩ := custody.speaks found front stepped
    exact valid.marked custody found speaks done
  | lost index process command rest engine now reaches running front stepped failed =>
    obtain ⟨found, _⟩ := process_of_running running
    obtain ⟨job, speaks⟩ := custody.speaks found front stepped
    exact valid.quiet found speaks.fetched

end Ledger

theorem ledger_of_reaches {settings : List ProcessSettings}
    {allowed : Engines CliType Value → EnginesAction CliType Value → Prop}
    (reached : Reaches step allowed (configured settings) engines) : Ledger engines := by
  induction reached with
  | refl => exact fun e none => nomatch none
  | next earlier _ taken ih => exact ih.moves (custody_of_reaches earlier) (moves_of_step taken)

/-- A job is executed once, and once more for each retry it was added with. -/
theorem executes_within_retries {settings : List ProcessSettings}
    (reached : Reaches step anyAction (configured settings) engines) {jobId : Guid}
    {parameters : RetryParameters} (added : (jobId, parameters) ∈ engines.added)
    (limit : parameters.maxRetries ≤ 2147483647) :
    (engines.executionsOf jobId : Int) ≤
      max (parameters.maxRetries - parameters.retryCount) 0 + 1 := by
  have valid := custody_of_reaches reached
  have within : engines.executionsOf jobId ≤ engines.fetches jobId := by
    rw [executionsOf, fetches, Engines.fetched, List.map_flatMap]
    refine List.Subperm.count_le (flatMap_subperm fun process member => ?_) jobId
    obtain ⟨index, found⟩ := List.mem_iff_getElem?.mp member
    have jobs := subperm_map FileSystemJobMetaData.jobId (valid.tracked found).2.2.2.subperm
    rw [List.map_map] at jobs
    rw [Process.fetched, List.map_append]
    exact jobs.trans (List.sublist_append_right _ _).subperm
  have listed : jobId ∈ engines.entries.map Entry.jobId :=
    valid.ids ▸ List.mem_map_of_mem added
  obtain ⟨e, present, rfl⟩ := List.mem_map.mp listed
  obtain ⟨current, _, _, retried, spent, _⟩ :=
    ledger_of_reaches reached e present parameters added limit
  omega

def sharedJob : OddJob String String where
  jobId := 7
  jobArgs := []
  typeExecutedOn := "Jobs.SampleJob, Jobs"
  methodName := "Add"
  methodGenericTypes := []

def sharedSettings : List ProcessSettings :=
  [⟨"default", 1, false⟩, ⟨"default", 1, false⟩]

def sharedFetch (index : Nat) (now : Ticks) : List (EnginesAction String String) :=
  [.act index (.post .jobSweep), .act index (.receive 0 0 .returned), .act index .layerReceive,
    .getJobs index (fun _ => now) (fun _ => now), .reply index]

def sharedDispatch (index : Nat) (now : Ticks) : List (EnginesAction String String) :=
  [.act index (.next 0 .returned), .act index (.workerReceive 0), .act index .tellInProgress,
    .act index (.next 0 .returned), .command index now true]

def sharedStart : List (EnginesAction String String) :=
  .addJob sharedJob (some { maxRetries := 1 }) none "default" 7 10 ::
    (sharedFetch 0 20 ++ sharedDispatch 0 21)

def sharedRun : List (EnginesAction String String) :=
  sharedStart ++ [.act 0 (.workerFinish 0 .threw), .act 0 (.receive 0 22 .returned),
    .command 0 23 true] ++ sharedFetch 1 30 ++ sharedDispatch 1 31

theorem executes_one_at_a_time_of_two : ∃ engines : Engines String String,
    execute (fun _ _ => true) step (configured sharedSettings) sharedRun = some engines ∧
    engines.executing = [7] ∧ engines.executing.Nodup := by
  have checked : (execute (fun _ _ => true) step (configured sharedSettings) sharedRun).any
      (fun engines : Engines String String => engines.executing = [7]) = true := by
    decide +kernel
  obtain ⟨engines, run, known⟩ := (Option.any_eq_true _ _).mp checked
  exact ⟨engines, run, of_decide_eq_true known,
    (executes_one_at_a_time (reaches_of_execute (fun _ _ _ => trivial) run)).1⟩

theorem executes_within_retries_of_two : ∃ engines : Engines String String,
    execute (fun _ _ => true) step (configured sharedSettings) sharedRun = some engines ∧
    engines.executionsOf 7 = 2 ∧ (engines.executionsOf 7 : Int) ≤ max (1 - 0) 0 + 1 := by
  have checked : (execute (fun _ _ => true) step (configured sharedSettings) sharedRun).any
      (fun engines : Engines String String => engines.executionsOf 7 = 2 ∧
        ((7, { maxRetries := 1 }) : Guid × RetryParameters) ∈ engines.added) = true := by
    decide +kernel
  obtain ⟨engines, run, known⟩ := (Option.any_eq_true _ _).mp checked
  obtain ⟨twice, added⟩ := of_decide_eq_true known
  exact ⟨engines, run, twice,
    executes_within_retries (reaches_of_execute (fun _ _ _ => trivial) run) added (by decide)⟩

end Engines

end OddJob.FileSystem
