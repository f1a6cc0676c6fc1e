import OddJob.Cluster.Overwrite
import OddJob.Sql.Calls

/-! Whichever process comes to execute a job, and whatever has happened to the job on the way,
it makes the call that the expression of the job stands for. -/

namespace OddJob.Cluster

open Akka Sql Transition

variable {Key CliType ParamType Value Instance : Type} [LinearOrder Key]
  {configuration : Configuration Key} {cluster after : Cluster CliType Value}
  {action : ClusterAction CliType Value}

theorem faithful_moves (valid : cluster.store.Faithful)
    (move : Moves configuration cluster action after) : after.store.Faithful := by
  cases move with
  | inserted jobData fresh => exact valid.insert jobData cluster.now
  | proceeded jobId insertion member same => exact valid.proceed insertion
  | claimed index node request lockGuid scan => exact valid.claim _ scan
  | applied index node command => exact valid.mark command.mark command.jobId cluster.now
  | _ => exact valid

theorem faithful_of_reaches {now : Ticks} {settings : List (NodeSettings CliType Value)}
    {allowed : Cluster CliType Value → ClusterAction CliType Value → Prop}
    (reached : Reaches (step configuration) allowed (configured now settings) cluster) :
    cluster.store.Faithful := by
  induction reached with
  | refl =>
    intro row none
    cases none
  | next earlier permitted taken ih => exact faithful_moves ih (moves_of_step taken)

theorem jobData_moves (move : Moves configuration cluster action after) :
    ∀ insertion ∈ cluster.store.insertions, ∃ later ∈ after.store.insertions,
      later.jobData = insertion.jobData := by
  intro insertion known
  cases move with
  | inserted jobData fresh => exact ⟨insertion, List.mem_append_left _ known, rfl⟩
  | proceeded jobId moved member same => exact Store.jobData_proceed moved known
  | _ => exact ⟨insertion, known, rfl⟩

private theorem provides_of_fetch {store : Store} {node : Node CliType Value}
    {rows : List SqlQueueRowSet} {lockGuid : Guid} {claimedAt : Ticks}
    {batch : List (Fetched CliType Value)} {fetched : Fetched CliType Value} (valid : store.Valid)
    (faithful : store.Faithful)
    (returned : Returns store.tables (fun q => q.lockGuid = some lockGuid) rows)
    (replied : node.fetch rows lockGuid claimedAt = some batch) (member : fetched ∈ batch) :
    store.Provides node.decoder fetched.job := by
  simp only [Node.fetch] at replied
  split at replied
  · rename_i jobs decoded
    cases replied
    obtain ⟨job, present, rfl⟩ := List.mem_map.mp member
    exact provides_of_read valid faithful returned decoded present
  · cases replied

/-- Every job that a process has fetched comes from the store. -/
def Provided (cluster : Cluster CliType Value) : Prop :=
  ∀ (index : Nat) (node : Node CliType Value), cluster.nodes[index]? = some node →
    ∀ fetched ∈ node.engine.taken, cluster.store.Provides node.decoder fetched.job

theorem Provided.moves (valid : Provided cluster) (sound : Sound cluster)
    (faithful : cluster.store.Faithful) (move : Moves configuration cluster action after) :
    Provided after := by
  have kept := jobData_moves move
  intro index node found fetched member
  have stays {acting : Nat} {old new : Node CliType Value}
      (here : cluster.nodes[acting]? = some old)
      (there : (cluster.nodes.set acting new)[index]? = some node)
      (decoder : new.decoder = old.decoder) (taken : new.engine.taken = old.engine.taken) :
      after.store.Provides node.decoder fetched.job := by
    rcases node_of_update there with ⟨rfl, rfl⟩ | ⟨_, same⟩
    · exact decoder ▸ (valid index old here fetched (taken ▸ member)).mono kept
    · exact (valid index node same fetched member).mono kept
  cases move with
  | waited | inserted | proceeded => exact (valid index node found fetched member).mono kept
  | crashed acting old here => exact stays here found rfl rfl
  | claimed acting old request lockGuid scan here => exact stays here found rfl rfl
  | acted acting old action engine here inside stepped =>
    refine stays here found rfl ?_
    rcases (sound.node acting old here).advance stepped with ⟨same, _, _⟩ |
      ⟨batch, reply, _, _, _⟩ | ⟨_, _, _, _, _, same, _, _⟩
    · exact same
    · rw [reply] at inside
      cases inside
    · exact same
  | threw acting old engine here stepped =>
    refine stays here found rfl ?_
    rcases (taken_of_layerReply stepped).2.2 with same | ⟨batch, nothing, _⟩
    · exact same
    · cases nothing
  | applied acting old command rest engine here front stepped =>
    exact stays here found rfl (by rw [processed_of_front front stepped])
  | lost acting old command rest engine here front stepped =>
    exact stays here found rfl (by rw [processed_of_front front stepped])
  | replied acting old lockGuid claimedAt rows engine here claimed returned stepped =>
    rcases (taken_of_layerReply stepped).2.2 with same | ⟨batch, fetches, taken⟩
    · exact stays here found rfl same
    · rcases node_of_update found with ⟨rfl, rfl⟩ | ⟨_, same⟩
      · rcases List.mem_append.mp (taken ▸ member) with older | newer
        · exact (valid index old here fetched older).mono kept
        · exact (provides_of_fetch sound.store faithful returned fetches newer).mono kept
      · exact (valid index node same fetched member).mono kept

theorem provided_of_reaches {now : Ticks} {settings : List (NodeSettings CliType Value)}
    {allowed : Cluster CliType Value → ClusterAction CliType Value → Prop}
    (reached : Reaches (step configuration) allowed (configured now settings) cluster) :
    Provided cluster := by
  induction reached with
  | refl =>
    intro index node found fetched member
    obtain ⟨given, _, rfl⟩ := List.mem_map.mp (List.mem_of_getElem? found)
    cases member
  | next earlier permitted taken ih =>
    exact ih.moves (sound_of_reaches earlier) (faithful_of_reaches earlier) (moves_of_step taken)

theorem decoder_of_reaches {now : Ticks} {settings : List (NodeSettings CliType Value)}
    {allowed : Cluster CliType Value → ClusterAction CliType Value → Prop}
    (reached : Reaches (step configuration) allowed (configured now settings) cluster) :
    ∀ node ∈ cluster.nodes, ∃ given ∈ settings, node.decoder = given.decoder := by
  induction reached with
  | refl =>
    intro node member
    obtain ⟨given, listed, rfl⟩ := List.mem_map.mp member
    exact ⟨given, listed, rfl⟩
  | next earlier permitted taken ih =>
    intro node member
    have stays {before : Cluster CliType Value} {acting : Nat} {old new : Node CliType Value}
        (all : ∀ node ∈ before.nodes, ∃ given ∈ settings, node.decoder = given.decoder)
        (here : before.nodes[acting]? = some old)
        (there : node ∈ before.nodes.set acting new) (decoder : new.decoder = old.decoder) :
        ∃ given ∈ settings, node.decoder = given.decoder := by
      rcases List.mem_or_eq_of_mem_set there with same | rfl
      · exact all node same
      · exact decoder ▸ all old (List.mem_of_getElem? here)
    cases moves_of_step taken with
    | waited | inserted | proceeded => exact ih node member
    | crashed _ _ here => exact stays ih here member rfl
    | acted _ _ _ _ here => exact stays ih here member rfl
    | claimed _ _ _ _ _ here => exact stays ih here member rfl
    | replied _ _ _ _ _ _ here => exact stays ih here member rfl
    | threw _ _ _ here => exact stays ih here member rfl
    | applied _ _ _ _ _ here => exact stays ih here member rfl
    | lost _ _ _ _ _ here => exact stays ih here member rfl

section Calls

open SerializableJobCreator

variable [DecidableEq CliType] [DecidableEq ParamType] {platform : Platform CliType Value}
  (json : JsonConvert platform) (staticClassJob object t : CliType)
  (reflection : Reflection CliType ParamType Value) (createInstance : CliType → Instance)

/-- In whatever process and on whatever attempt a job is executed, after whatever crashes,
takeovers and late marks: it was inserted, and if it was made from an expression, then the
executor does with it what it would do with the job of that expression itself. So where the
named method cannot be mistaken, that method is invoked with the values of the arguments. -/
theorem executions_make_the_call {now : Ticks} {settings : List (NodeSettings CliType Value)}
    (typed : ∀ given ∈ settings, given.decoder = json.decoder)
    (reached : Reaches (step configuration) anyAction (configured now settings) cluster) :
    ∀ request ∈ cluster.began, ∃ insertion ∈ cluster.store.insertions,
      insertion.jobData.jobId = request.jobData.job.jobId ∧
      ∀ (jobExpression : MethodCallExpression CliType ParamType Value) (given : Settings CliType)
        (jobId : Guid), createJobDefinition json staticClassJob object t jobExpression
          { given with typeNameSerializer := platform.unversionedName } jobId =
            .ok insertion.jobData →
        (∃ created,
          JobCreator.createInternal staticClassJob object t jobExpression jobId = .ok created ∧
          ∀ getMethods, DefaultJobExecutor.executeStored reflection createInstance getMethods
              request.jobData.job =
            DefaultJobExecutor.executeJob reflection createInstance getMethods created) ∧
        ∀ values, jobExpression.arguments.mapM ArgumentExpression.evaluate = .ok values →
          let target := JobCreator.typeExecutedOn staticClassJob object t jobExpression
          jobExpression.method ∈ reflection.publicMethods target →
          reflection.Unmistakable target jobExpression values →
          ∀ getMethods : CliType → List (MethodInfo CliType ParamType),
            (∀ type, (getMethods type).Perm (reflection.publicMethods type)) →
            DefaultJobExecutor.executeStored reflection createInstance getMethods
              request.jobData.job = .ok {
                method := jobExpression.method
                genericArguments := jobExpression.genericArguments
                instance_ :=
                  if reflection.isStatic target then none else some (createInstance target)
                arguments := values } := by
  intro request begun
  obtain ⟨node, member, executed⟩ := List.mem_flatMap.mp begun
  obtain ⟨index, found⟩ := List.mem_iff_getElem?.mp member
  obtain ⟨_, _, _, run⟩ := ((sound_of_reaches reached).node index node found).engine
  have taken := fetched_of_began run request executed
  have decoder : node.decoder = json.decoder := by
    obtain ⟨given, listed, same⟩ := decoder_of_reaches reached node member
    exact same.trans (typed given listed)
  obtain ⟨insertion, known, id, wire, decoded, same⟩ :=
    provided_of_reaches reached index node found request.jobData taken
  refine ⟨insertion, known, id, fun jobExpression given jobId made => ?_⟩
  rw [decoder] at decoded
  have transparent := executeStored_eq reflection createInstance made
    (same (numbered_of_createJobDefinition made)) decoded
  refine ⟨transparent, ?_⟩
  intro values evaluated target listed unmistakable getMethods order
  obtain ⟨created, creation, executes⟩ := transparent
  have named : DefaultJobExecutor.InvokesNamed reflection createInstance staticClassJob object t
      jobExpression values := by
    by_cases plain : jobExpression.genericArguments = []
    · exact (DefaultJobExecutor.invokesNamed_plain reflection createInstance staticClassJob object t
        jobExpression listed evaluated plain).mpr unmistakable
    · exact (DefaultJobExecutor.invokesNamed_generic reflection createInstance staticClassJob object
        t jobExpression listed evaluated plain).mpr unmistakable
  obtain ⟨other, again, invoked⟩ := named getMethods order jobId
  obtain rfl : created = other := Except.ok.inj (creation.symm.trans again)
  exact (executes getMethods).trans invoked

end Calls

open SerializableJobCreator

def sampleReflection : Reflection SampleClr SampleClr SampleFive where
  getType := samplePlatform.getType
  publicMethods
    | .sampleJob => [(sampleExpression none).method]
    | _ => []
  isStatic _ := false
  accepts parameter type := parameter = type
  better _ _ _ := false
  asymmetric _ _ _ preferred := by cases preferred

def sampleWritten : SerializableOddJob :=
  match createJobDefinition sampleJson .staticClassJob .object .sampleJob
    (sampleExpression (some .int32)) ⟨none, none, "default", samplePlatform.unversionedName⟩ 7 with
  | .ok jobData => jobData
  | .error _ => sampleJobData

def sampleReader : NodeSettings SampleClr SampleFive where
  queueName := "default"
  numWorkers := 1
  aggressiveSweep := false
  decoder := sampleJson.decoder

def sampleExecution : List (ClusterAction SampleClr SampleFive) :=
  let row := publishedRow sampleWritten 1 0
  let locked := { row with lockGuid := some 40, lockClaimTime := some 0 }
  [.insert sampleWritten, .proceed 7, .proceed 7, .proceed 7, .act 0 (.post .jobSweep),
    .act 0 (.receive 0 0 .returned), .act 0 .layerReceive, .claim 0 40 [row],
    .reply 0 (joinQuery [locked] { params := getParamDataForJob sampleWritten }),
    .act 0 (.next 0 .returned), .act 0 (.workerReceive 0)]

theorem executions_make_the_call_of_int32 : ∃ cluster : Cluster SampleClr SampleFive,
    execute (fun _ _ => true) (step sampleConfiguration) (configured 0 [sampleReader])
      sampleExecution = some cluster ∧
    ∃ request ∈ cluster.began,
      DefaultJobExecutor.executeStored sampleReflection (fun _ => ()) sampleReflection.publicMethods
        request.jobData.job = .ok {
          method := (sampleExpression none).method
          genericArguments := []
          instance_ := some ()
          arguments := [some .int32] } := by
  have checked : (execute (fun _ _ => true) (step sampleConfiguration) (configured 0 [sampleReader])
      sampleExecution).any (fun cluster =>
        cluster.store.insertions.map Insertion.jobData = [sampleWritten] ∧
        cluster.began.length = 1) = true := by
    decide +kernel
  have made : createJobDefinition sampleJson .staticClassJob .object .sampleJob
      (sampleExpression (some .int32)) ⟨none, none, "default", samplePlatform.unversionedName⟩ 7 =
        .ok sampleWritten := by
    decide +kernel
  obtain ⟨cluster, run, known⟩ := (Option.any_eq_true _ _).mp checked
  obtain ⟨inserted, one⟩ := of_decide_eq_true known
  obtain ⟨request, begun⟩ := List.exists_mem_of_length_pos (one ▸ Nat.one_pos)
  have typed : ∀ given ∈ [sampleReader], given.decoder = sampleJson.decoder := by
    intro given listed
    rw [List.mem_singleton.mp listed]
    rfl
  obtain ⟨insertion, stored, _, calls⟩ :=
    executions_make_the_call sampleJson .staticClassJob .object .sampleJob sampleReflection
      (fun _ => ()) typed (reaches_of_execute (fun _ _ _ => trivial) run) request begun
  have same : insertion.jobData = sampleWritten := by
    have listed := List.mem_map_of_mem (f := Insertion.jobData) stored
    rw [inserted] at listed
    exact List.mem_singleton.mp listed
  refine ⟨cluster, run, request, begun, ?_⟩
  exact (calls (sampleExpression (some .int32)) ⟨none, none, "default", fun _ => ""⟩ 7
    (same ▸ made)).2 [some .int32] rfl (by decide) ⟨[.int32], rfl, by decide, by decide⟩
    sampleReflection.publicMethods fun _ => .refl _

end OddJob.Cluster
