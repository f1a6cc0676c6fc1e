import OddJob.Cluster.Runs

/-! With marks in time, no two workers are at one job, in whatever processes they are,
and no job is tried more often than its retry parameters allow. -/

namespace OddJob.Cluster

open Akka Sql Transition

variable {Key CliType Value : Type} {configuration : Configuration Key}
  {cluster : Cluster CliType Value} {jobId : Guid} {item : Lease.Item Guid Ticks}
  {index other : Nat} {node others : Node CliType Value}

/-- The calls of `ExecuteJob` that have not ended. -/
def executing (cluster : Cluster CliType Value) :
    List (ExecuteJobRequest (Fetched CliType Value)) :=
  cluster.nodes.flatMap fun node => node.engine.executing

theorem Models.live_of_executing {request : ExecuteJobRequest (Fetched CliType Value)}
    (valid : Models configuration jobId cluster item) (sound : Sound cluster)
    (found : cluster.nodes[index]? = some node) (member : request ∈ node.engine.executing)
    (same : request.jobData.job.jobId = jobId) :
    cluster.Took jobId index node request.ticket request.jobData ∧
      ∃ holding, item.holdings request.jobData.lockGuid = some holding ∧
        holding.Live item.now := by
  have here := sound.node index node found
  obtain ⟨stage, taken, _⟩ := here.tracked.executing.fits request member
  have took : cluster.Took jobId index node request.ticket request.jobData := ⟨found, taken, same⟩
  obtain ⟨holding, held, model⟩ := valid.lease index node request.ticket request.jobData took
  refine ⟨took, holding, held, ?_, .inl ?_⟩
  · rw [model.closed]
    exact here.closed_unhandled (by simp [stage]) (by simp [stage, Stage.isHandled])
  · rw [model.progress, stage]
    simp [Stage.progress]

theorem Models.executing_unique {request requests : ExecuteJobRequest (Fetched CliType Value)}
    (valid : Models configuration jobId cluster item) (guarded : Lease.Guarded item)
    (sound : Sound cluster) (found : cluster.nodes[index]? = some node)
    (member : request ∈ node.engine.executing) (same : request.jobData.job.jobId = jobId)
    (finds : cluster.nodes[other]? = some others) (members : requests ∈ others.engine.executing)
    (sames : requests.jobData.job.jobId = jobId) :
    index = other ∧ request.ticket = requests.ticket := by
  obtain ⟨took, holding, held, live⟩ := valid.live_of_executing sound found member same
  obtain ⟨takes, holdings, holds, lives⟩ := valid.live_of_executing sound finds members sames
  exact took.unique takes sound (guarded.alone held live holds lives)

theorem executing_nodup (sound : Sound cluster)
    (modelled : ∀ jobId, ∃ item, Models configuration jobId cluster item ∧ Lease.Guarded item) :
    (cluster.executing.map fun request => request.jobData.job.jobId).Nodup := by
  rw [executing, List.map_flatMap, List.nodup_flatMap]
  constructor
  · intro node member
    obtain ⟨index, found⟩ := List.mem_iff_getElem?.mp member
    have once := (sound.node index node found).tracked.executing.once
    refine List.Nodup.map_on (fun request present requests presents same => ?_) once.of_map
    obtain ⟨item, valid, guarded⟩ := modelled request.jobData.job.jobId
    have tickets := (valid.executing_unique guarded sound found present rfl found presents
      same.symm).2
    exact List.inj_on_of_nodup_map once present presents tickets
  · apply List.pairwise_iff_getElem.mpr
    intro index other inside insides before jobId left right
    obtain ⟨request, present, same⟩ := List.mem_map.mp left
    obtain ⟨requests, presents, sames⟩ := List.mem_map.mp right
    obtain ⟨item, valid, guarded⟩ := modelled jobId
    have equal := (valid.executing_unique guarded sound (List.getElem?_eq_getElem inside) present
      same (List.getElem?_eq_getElem insides) presents sames).1
    exact absurd equal (Nat.ne_of_lt before)

/-- The attempts of a job, and its executions, are within its retry parameters. -/
theorem Models.within_retries {row : SqlCommonDbOddJobMetaData}
    (valid : Models configuration row.jobGuid cluster item) (guarded : Lease.Guarded item)
    (member : row ∈ cluster.store.tables.queue) :
    row.retryCount ≤ max row.maxRetries 0 ∧
      ((cluster.executionsOf row.jobGuid).length : Int) ≤ max row.maxRetries 0 + 1 := by
  have model := valid.row row member rfl
  have counted : row.retryCount ≤ max row.maxRetries 0 := by
    rw [← model.attempts]
    by_cases hidden : item.status = .hidden
    · rw [(guarded.hidden hidden).1]
      exact Int.le_max_right _ _
    · rw [← model.limit hidden]
      exact guarded.bounded
  refine ⟨counted, ?_⟩
  rw [← valid.executions]
  have executed : (item.executions : Int) ≤ item.attempts + 1 := by
    rcases guarded.executed with fewer | ⟨bound, _⟩
    · omega
    · exact bound
  rw [model.attempts] at executed
  omega

theorem Models.stored_of_began {request : ExecuteJobRequest (Fetched CliType Value)}
    (valid : Models configuration request.jobData.job.jobId cluster item)
    (guarded : Lease.Guarded item) (member : request ∈ cluster.began) :
    ∃ row ∈ cluster.store.tables.queue, row.jobGuid = request.jobData.job.jobId := by
  by_contra none
  have missing := valid.absent fun row stored same => none ⟨row, stored, same⟩
  have listed : request ∈ cluster.executionsOf request.jobData.job.jobId :=
    List.mem_filter.mpr ⟨member, by simp⟩
  have counted := List.length_pos_of_mem listed
  rw [← valid.executions] at counted
  rcases guarded.executed with fewer | ⟨_, lock, _, _, held, _⟩
  · rw [missing.2.1] at fewer
    omega
  · rw [valid.hidden missing.1 lock] at held
    cases held

variable [LinearOrder Key]

/-- As long as every job handed to a worker is marked in progress within the lock timeout
of its claim, no job is executed twice at a time, and none more than once for each attempt
its retry parameters grant. -/
theorem jobs_run_alone_within_retries {now : Ticks} {settings : List (NodeSettings CliType Value)}
    (reached : Reaches (step configuration) (staying (step configuration) (Timely configuration))
      (configured now settings) cluster) :
    (cluster.executing.map fun request => request.jobData.job.jobId).Nodup ∧
    (∀ row ∈ cluster.store.tables.queue, row.retryCount ≤ max row.maxRetries 0 ∧
      ((cluster.executionsOf row.jobGuid).length : Int) ≤ max row.maxRetries 0 + 1) ∧
    ∀ request ∈ cluster.began, ∃ row ∈ cluster.store.tables.queue,
      row.jobGuid = request.jobData.job.jobId := by
  have modelled := exists_guarded reached
  refine ⟨executing_nodup (sound_of_reaches reached) modelled, fun row member => ?_,
    fun request member => ?_⟩
  · obtain ⟨item, valid, guarded⟩ := modelled row.jobGuid
    exact valid.within_retries guarded member
  · obtain ⟨item, valid, guarded⟩ := modelled request.jobData.job.jobId
    exact valid.stored_of_began guarded member

def sampleConfiguration : Configuration Int where
  jobClaimLockTimeoutInSeconds := defaultJobClaimLockTimeoutInSeconds
  collate date := date.getD minValue

def sampleNode : NodeSettings String String where
  queueName := "default"
  numWorkers := 1
  aggressiveSweep := false
  decoder := Store.sampleDecoder

def sampleJobData : SerializableOddJob :=
  { Store.sampleJobData [] with
    methodGenericTypes := []
    retryParameters := some { maxRetries := 1 } }

def sampleRow : SqlCommonDbOddJobMetaData := publishedRow sampleJobData 1 0

def sampleInsert : List (ClusterAction String String) :=
  [.insert sampleJobData, .proceed 7, .proceed 7, .proceed 7]

/-- The process at `index` asks for jobs, and its queue layer claims what the scan shows. -/
def sampleFetch (index : Nat) (lockGuid : Guid) (row : SqlCommonDbOddJobMetaData) :
    List (ClusterAction String String) :=
  [.act index (.post .jobSweep), .act index (.receive 0 0 .returned), .act index .layerReceive,
    .claim index lockGuid [row]]

def sampleDispatch (index : Nat) : List (ClusterAction String String) :=
  [.act index (.next 0 .returned), .act index (.workerReceive 0), .act index .tellInProgress,
    .act index (.next 0 .returned)]

def sampleFinish (index : Nat) (outcome : Outcome) : List (ClusterAction String String) :=
  [.act index (.workerFinish 0 outcome), .act index (.receive 0 0 .returned)]

def sampleRun : List (ClusterAction String String) :=
  let locked := { sampleRow with lockGuid := some 40, lockClaimTime := some 0 }
  sampleInsert ++ sampleFetch 0 40 sampleRow ++ [.reply 0 [⟨locked, {}, {}⟩]] ++
    sampleFetch 1 41 locked ++ [.reply 1 []] ++ sampleDispatch 0 ++ [.command 0 true]

theorem jobs_run_alone_within_retries_of_two : ∃ cluster : Cluster String String,
    execute (keeping (step sampleConfiguration) (Timely sampleConfiguration))
      (step sampleConfiguration) (configured 0 [sampleNode, sampleNode]) sampleRun =
        some cluster ∧
    cluster.executing.map (fun request => request.jobData.job.jobId) = [7] ∧
    (cluster.executing.map fun request => request.jobData.job.jobId).Nodup ∧
    ((cluster.executionsOf 7).length : Int) ≤ 2 := by
  have checked : (execute (keeping (step sampleConfiguration) (Timely sampleConfiguration))
      (step sampleConfiguration) (configured 0 [sampleNode, sampleNode]) sampleRun).any
        (fun cluster => cluster.executing.map (fun request => request.jobData.job.jobId) = [7] ∧
          ∃ row ∈ cluster.store.tables.queue, row.jobGuid = 7 ∧ row.maxRetries = 1) = true := by
    decide +kernel
  obtain ⟨cluster, run, known⟩ := (Option.any_eq_true _ _).mp checked
  obtain ⟨executing, row, member, guid, maxRetries⟩ := of_decide_eq_true known
  have alone := jobs_run_alone_within_retries
    (reaches_of_execute (fun _ _ => staying_of_keeping) run)
  have bounded := (alone.2.1 row member).2
  rw [guid, maxRetries] at bounded
  exact ⟨cluster, run, executing, alone.1, bounded⟩

end OddJob.Cluster
