import OddJob.Executor
import OddJob.Sql.Rows

/-! The executor is given a stored job in place of the one that the expression made. On the
platform that wrote it, it cannot tell the two apart. -/

namespace OddJob

variable {CliType ParamType Value Instance : Type}

namespace DefaultJobExecutor

variable [DecidableEq CliType] [DecidableEq ParamType]
  (reflection : Reflection CliType ParamType Value) (createInstance : CliType → Instance)
  (getMethods : CliType → List (MethodInfo CliType ParamType))

/-- `ExecuteJob` of a job whose types were looked up by their names, so that any of them may
be null. -/
def executeStored (expr : SqlDbOddJob CliType Value) :
    Except ClrException (Invocation CliType ParamType Value Instance) :=
  match expr.typeExecutedOn, expr.methodGenericTypes.mapM id with
  -- `expr.TypeExecutedOn.IsAbstract`
  | none, _ => throw .nullReference
  | some typeExecutedOn, some methodGenericTypes =>
    executeJob reflection createInstance getMethods {
      jobId := expr.jobId
      jobArgs := expr.jobArgs
      typeExecutedOn
      methodName := expr.methodName
      status := expr.status
      methodGenericTypes }
  -- `MakeGenericMethod` of a null, where `FirstOrDefault` has found a method
  | some typeExecutedOn, none =>
    if (getMethods typeExecutedOn).any (Reflection.genericCandidate expr.methodName
        expr.methodGenericTypes.length expr.jobArgs.length) then throw .argumentNull
    else throw .nullReference

omit [DecidableEq CliType] [DecidableEq ParamType] in
private theorem argumentTypes_congr {left right : List (OddJobParameter Value)}
    (values : left.map OddJobParameter.value = right.map OddJobParameter.value) :
    argumentTypes reflection left = argumentTypes reflection right := by
  induction left generalizing right with
  | nil => rw [List.map_eq_nil_iff.mp values.symm]
  | cons argument rest ih =>
    cases right with
    | nil => cases values
    | cons other others =>
      obtain ⟨head, tail⟩ := List.cons.inj values
      simp only [argumentTypes, head, ih tail]

/-- The executor looks at the type, the method, the generic types and the values. -/
theorem executeJob_congr {left right : OddJob CliType Value}
    (typeExecutedOn : left.typeExecutedOn = right.typeExecutedOn)
    (methodName : left.methodName = right.methodName)
    (methodGenericTypes : left.methodGenericTypes = right.methodGenericTypes)
    (values : left.jobArgs.map OddJobParameter.value = right.jobArgs.map OddJobParameter.value) :
    executeJob reflection createInstance getMethods left =
      executeJob reflection createInstance getMethods right := by
  have counted : left.jobArgs.length = right.jobArgs.length := by
    simpa using congrArg List.length values
  simp only [executeJob, typeExecutedOn, methodName, methodGenericTypes, values, counted,
    argumentTypes_congr reflection values]

end DefaultJobExecutor

namespace SerializableOddJob

/-- The wire forms stand for one call, in whatever states their jobs are. -/
structure SameCall (left right : SerializableOddJob) : Prop where
  typeExecutedOn : left.typeExecutedOn = right.typeExecutedOn
  methodName : left.methodName = right.methodName
  jobArgs : left.jobArgs = right.jobArgs
  methodGenericTypes : left.methodGenericTypes = right.methodGenericTypes

end SerializableOddJob

namespace JsonConvert

variable {platform : Platform CliType Value} (json : JsonConvert platform)

/-- A manager with `NullOnMissingTypeJobTypeResolver`; `DeserializeObject` takes no null text. -/
def decoder : Sql.Decoder CliType Value where
  getTypeForJob name := .ok (platform.getTypeForJob name)
  deserializeObject
    | none, _ => .error .argumentNull
    | some text, type => (json.deserializeObject text type).mapError .json
  coreFullName := platform.coreFullName

theorem arg_wireArg (entry : (OddJobParameter Value × Value) × Nat) :
    ∃ arg, json.decoder.arg
        (SerializableJobCreator.wireArg json platform.unversionedName entry) = .ok arg ∧
      arg.value = some entry.1.2 := by
  have found := platform.getTypeForJob_unversionedName (platform.getType entry.1.2)
  simp [Sql.Decoder.arg, decoder, SerializableJobCreator.wireArg, found, json.typed, bind,
    Except.bind, pure, Except.pure]

theorem mapM_arg_wireArg {args : List (OddJobParameter Value)} {given : List Value} (i : Nat)
    (carried : args.map OddJobParameter.value = given.map some) :
    ∃ read, (((args.zip given).zipIdx i).map (SerializableJobCreator.wireArg json
        platform.unversionedName)).mapM json.decoder.arg = .ok read ∧
      read.map OddJobParameter.value = args.map OddJobParameter.value := by
  induction args generalizing given i with
  | nil => exact ⟨[], rfl, rfl⟩
  | cons a rest ih =>
    cases given with
    | nil => cases carried
    | cons value others =>
      obtain ⟨here, later⟩ := List.cons.inj carried
      obtain ⟨arg, taken, same⟩ := json.arg_wireArg ((a, value), i)
      obtain ⟨read, done, values⟩ := ih (i + 1) later
      refine ⟨arg :: read, ?_, by rw [List.map_cons, List.map_cons, values, same, here]⟩
      simp only [List.zip_cons_cons, List.zipIdx_cons, List.map_cons, List.mapM_cons, taken, done,
        bind, Except.bind, pure, Except.pure]

theorem mapM_getTypeForJob (types : List CliType) :
    (types.map fun type => some (platform.unversionedName (some type))).mapM
      json.decoder.getTypeForJob = .ok (types.map some) := by
  have pure_ : json.decoder.getTypeForJob = fun name => pure (platform.getTypeForJob name) := rfl
  rw [pure_, List.mapM_pure, List.map_map]
  exact congrArg Except.ok (List.map_congr_left fun type _ =>
    platform.getTypeForJob_unversionedName type)

end JsonConvert

namespace Sql

open SerializableJobCreator

section Call

variable [DecidableEq CliType] [DecidableEq ParamType] {platform : Platform CliType Value}
  {json : JsonConvert platform} {staticClassJob object t : CliType}
  {jobExpression : MethodCallExpression CliType ParamType Value} {settings : Settings CliType}
  {jobId : Guid} {jobData wire : SerializableOddJob} {job : SqlDbOddJob CliType Value}

/-- A stored job with the call of an expression is executed as the job of that expression. -/
theorem executeStored_eq (reflection : Reflection CliType ParamType Value)
    (createInstance : CliType → Instance)
    (made : createJobDefinition json staticClassJob object t jobExpression
      { settings with typeNameSerializer := platform.unversionedName } jobId = .ok jobData)
    (same : wire.SameCall jobData) (decoded : json.decoder.decode wire = .ok job) :
    ∃ created,
      JobCreator.createInternal staticClassJob object t jobExpression jobId = .ok created ∧
      ∀ getMethods, DefaultJobExecutor.executeStored reflection createInstance getMethods job =
        DefaultJobExecutor.executeJob reflection createInstance getMethods created := by
  obtain ⟨created, jobArgs, creation, written, rfl⟩ := (createJobDefinition_eq_ok_iff json).mp made
  obtain ⟨given, carried, rfl⟩ := (serializedArgsFrom_eq_ok_iff json).mp written
  obtain ⟨type, args, types, typed, read, named, rfl⟩ :=
    json.decoder.decode_eq_ok_iff.mp decoded
  obtain ⟨typeExecutedOn, methodName, argsSame, genericsSame⟩ := same
  have type : type = some created.typeExecutedOn := by
    rw [typeExecutedOn] at typed
    exact (Except.ok.inj typed).symm.trans (platform.getTypeForJob_unversionedName _)
  have values : args.map OddJobParameter.value = created.jobArgs.map OddJobParameter.value := by
    obtain ⟨others, again, values⟩ := json.mapM_arg_wireArg 0 carried
    rw [argsSame, again] at read
    exact Except.ok.inj read ▸ values
  have types : types.mapM id = some created.methodGenericTypes := by
    rw [genericsSame, json.mapM_getTypeForJob] at named
    rw [← Except.ok.inj named, List.mapM_map]
    exact (List.mapM_pure (m := Option)).trans (congrArg some (List.map_id _))
  refine ⟨created, creation, fun getMethods => ?_⟩
  simp only [DefaultJobExecutor.executeStored, type, types]
  exact DefaultJobExecutor.executeJob_congr reflection createInstance getMethods rfl methodName rfl
    values

end Call

variable {store after : Store} {decoder : Decoder CliType Value} {job : SqlDbOddJob CliType Value}

/-- The job was added to the store, and is decoded from the call it was added with. -/
def Store.Provides (store : Store) (decoder : Decoder CliType Value)
    (job : SqlDbOddJob CliType Value) : Prop :=
  ∃ insertion ∈ store.insertions, insertion.jobData.jobId = job.jobId ∧
    ∃ wire, decoder.decode wire = .ok job ∧
      (Numbered insertion.jobData → wire.SameCall insertion.jobData)

theorem Store.Provides.mono (provides : store.Provides decoder job)
    (kept : ∀ insertion ∈ store.insertions, ∃ later ∈ after.insertions,
      later.jobData = insertion.jobData) : after.Provides decoder job := by
  obtain ⟨insertion, known, same⟩ := provides
  obtain ⟨later, still, equal⟩ := kept insertion known
  exact ⟨later, still, equal ▸ same⟩

/-- A fetch provides the jobs of the locked rows, whatever has been written to their
status, their attempts and their locks. -/
theorem provides_of_read {lockGuid : Guid} {rows : List SqlQueueRowSet}
    {jobs : List (SqlDbOddJob CliType Value)} (valid : store.Valid) (faithful : store.Faithful)
    (returned : Returns store.tables (fun q => q.lockGuid = some lockGuid) rows)
    (fetched : toList (executeJoinQuery decoder rows) = .ok jobs) (member : job ∈ jobs) :
    store.Provides decoder job := by
  obtain ⟨row, present, locked, first, group, whole, rfl, decoded⟩ :=
    exists_group_of_mem valid.rowGuids returned (mem_toList fetched member)
  obtain ⟨insertion, known, guid, written⟩ := faithful first.metaData present
  obtain ⟨other, finished, same, published⟩ :=
    valid.published_of_row present (.inr (by simp [of_decide_eq_true locked]))
  obtain rfl := valid.insertion_unique known finished (guid.trans same.symm)
  refine ⟨insertion, known, guid.trans (decoder.ofGroup_ok decoded).1.symm, ?_⟩
  rw [decoder.ofGroup_eq_decode, ← guid] at decoded
  refine ⟨_, decoded, fun numbered => ?_⟩
  rw [(valid.stored known published).serializableOfGroup_eq whole guid.symm numbered rfl]
  exact ⟨written.typeExecutedOn, written.methodName, rfl, rfl⟩

end Sql

end OddJob
