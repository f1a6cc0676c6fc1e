import OddJob.Akka.Sweep
import OddJob.Cluster.System
import OddJob.Sql.Fetch

/-! A batch is decoded as a whole: what becomes of the jobs that were claimed together with
one that cannot be decoded. -/

namespace OddJob

open Akka Sql Transition

/-- The coordinator takes the job out of the reply. If the job has a type, the coordinator
gets to the end of its batch, and by then it has handed the job to a worker. -/
def Akka.Engine.Dispatches {Job : Type} [OddJobWithMetadata Job] (engine after : Engine Job)
    (job : Job) : Prop :=
  ∃ ticket, engine.taken.length ≤ ticket ∧ after.taken[ticket]? = some job ∧
    (OddJobWithMetadata.typeMissing job = false →
      (∃ final, Reaches Engine.step anyAction after final ∧ final.phase = .idle) ∧
      ∀ final, Reaches Engine.step anyAction after final → final.phase = .idle →
        ⟨job, ticket⟩ ∈ final.requests)

variable {CliType Value : Type} {node : Node CliType Value} {request : GetJobs}
  {rows : List SqlQueueRowSet} {lockGuid : Guid} {claimedAt : Ticks}
  {after : Engine (Fetched CliType Value)}

private theorem fetch_eq_some_iff {batch : List (Fetched CliType Value)} :
    node.fetch rows lockGuid claimedAt = some batch ↔ ∃ jobs,
      toList (executeJoinQuery node.decoder rows) = .ok jobs ∧
        batch = jobs.map fun job => { job, lockGuid, claimedAt } := by
  unfold Node.fetch
  cases toList (executeJoinQuery node.decoder rows) with
  | ok jobs => simp [eq_comm]
  | error thrown => simp

private theorem fetched_of_decoded (lockGuid : Guid) (claimedAt : Ticks)
    (all : ∀ entry ∈ decodings node.decoder rows, ∃ job, entry.2 = .ok job) :
    ∃ batch, node.fetch rows lockGuid claimedAt = some batch ∧
      ∀ entry ∈ decodings node.decoder rows, ∀ job, entry.2 = .ok job →
        ({ job, lockGuid, claimedAt } : Fetched CliType Value) ∈ batch := by
  have decoded : ∀ result ∈ executeJoinQuery node.decoder rows, ∃ job, result = .ok job := by
    rw [executeJoinQuery_eq]
    exact List.forall_mem_map.mpr all
  obtain ⟨jobs, done⟩ := exists_toList_iff.mpr decoded
  refine ⟨_, fetch_eq_some_iff.mpr ⟨jobs, done, rfl⟩, ?_⟩
  intro entry member job read
  have listed : entry.2 ∈ jobs.map Except.ok := by
    rw [← toList_eq_ok_iff.mp done, executeJoinQuery_eq]
    exact List.mem_map_of_mem member
  obtain ⟨other, present, same⟩ := List.mem_map.mp listed
  rw [read] at same
  cases same
  exact List.mem_map_of_mem present

private theorem fetch_eq_none_of_error {entry : Guid × Except ClrException (SqlDbOddJob CliType Value)}
    (member : entry ∈ decodings node.decoder rows) (thrown : ∀ job, entry.2 ≠ .ok job) :
    node.fetch rows lockGuid claimedAt = none := by
  rw [Option.eq_none_iff_forall_ne_some]
  intro batch fetched
  obtain ⟨jobs, done, _⟩ := fetch_eq_some_iff.mp fetched
  have decoded := exists_toList_iff.mp ⟨jobs, done⟩
  rw [executeJoinQuery_eq, List.forall_mem_map] at decoded
  obtain ⟨job, read⟩ := decoded entry member
  exact thrown job read

section Reply

variable {queueName : String} {numWorkers : Nat} {aggressiveSweep : Bool}

private theorem dispatches_of_reply
    (reached : Reaches Engine.step anyAction
      (Engine.configured queueName numWorkers aggressiveSweep) node.engine)
    (fetching : node.engine.fetching = some request)
    (waiting : node.engine.phase = .awaitingJobs request.ask)
    {batch : List (Fetched CliType Value)}
    (replied : node.engine.step (.layerReply (some batch)) = some after)
    {fetched : Fetched CliType Value} (member : fetched ∈ batch) :
    node.engine.Dispatches after fetched := by
  have delivered : after = { node.engine with
      fetching := none
      taken := node.engine.taken ++ batch
      phase := .queueing (batch.zipIdx node.engine.taken.length) } := by
    simp only [Engine.step, fetching, Option.map_some, Engine.layerReply, waiting, ↓reduceIte,
      Option.some.injEq] at replied
    exact replied.symm
  obtain ⟨index, found⟩ := List.getElem?_of_mem member
  have inside : after.taken[node.engine.taken.length + index]? = some fetched := by
    rw [delivered, List.getElem?_append_right (Nat.le_add_right _ _), Nat.add_sub_cancel_left]
    exact found
  refine ⟨_, Nat.le_add_right _ _, inside, fun typed => ⟨?_, ?_⟩⟩
  · have staffed : 0 < after.workers.length :=
      delivered ▸ (staffed_of_reaches reached).exists_worker (balanced_of_reaches reached) waiting
    exact loop_ends (congrArg Engine.phase delivered) staffed
  · intro final later idle
    have whole := Reaches.trans (.next reached trivial replied) later
    obtain ⟨bound, same⟩ := List.getElem?_eq_some_iff.mp inside
    have kept := List.prefix_iff_getElem?.mp (taken_of_reaches later) _ bound
    exact (told_of_reaches whole).dispatched_of_idle (tracked_of_reaches whole) idle
      (kept.trans (congrArg some same)) typed

/-- Every claimed job that can be decoded reaches the coordinator and, if it has a type, a
worker in that sweep, exactly when all claimed jobs can be decoded or none can. -/
theorem decodable_jobs_dispatched_iff
    (reached : Reaches Engine.step anyAction
      (Engine.configured queueName numWorkers aggressiveSweep) node.engine)
    (fetching : node.engine.fetching = some request)
    (waiting : node.engine.phase = .awaitingJobs request.ask) {tables : Tables}
    (guids : (tables.queue.map SqlCommonDbOddJobMetaData.jobGuid).Nodup)
    (returned : Returns tables (fun q => q.lockGuid = some lockGuid) rows)
    (replied : node.engine.step (.layerReply (node.fetch rows lockGuid claimedAt)) = some after) :
    ((decodings node.decoder rows).map Prod.fst).Perm
      ((tables.queue.filter fun q => q.lockGuid = some lockGuid).map
        SqlCommonDbOddJobMetaData.jobGuid) ∧
    ((∀ entry ∈ decodings node.decoder rows, ∀ job, entry.2 = .ok job →
      node.engine.Dispatches after { job, lockGuid, claimedAt }) ↔
      (∀ entry ∈ decodings node.decoder rows, ∃ job, entry.2 = .ok job) ∨
      (∀ entry ∈ decodings node.decoder rows, ∀ job, entry.2 ≠ .ok job)) := by
  refine ⟨decodings_ids node.decoder guids returned, ?_, ?_⟩
  · intro dispatched
    by_contra mixed
    obtain ⟨partly, some⟩ := not_or.mp mixed
    push Not at partly some
    obtain ⟨broken, listed, thrown⟩ := partly
    obtain ⟨entry, member, job, read⟩ := some
    obtain ⟨ticket, new, taken, _⟩ := dispatched entry member job read
    rw [fetch_eq_none_of_error listed thrown, Engine.step, fetching] at replied
    cases replied
    have inside := (List.getElem?_eq_some_iff.mp taken).1
    exact absurd inside (Nat.not_lt.mpr new)
  · rintro (all | none) entry member job read
    · obtain ⟨batch, fetched, complete⟩ :=
        fetched_of_decoded lockGuid claimedAt all
      rw [fetched] at replied
      exact dispatches_of_reply reached fetching waiting replied (complete entry member job read)
    · exact absurd read (none entry member job)

end Reply

def mixedTables : Tables :=
  claimTables { fetchClaim with lockTime := 700000000 } queuedTables.queue queuedTables

def mixedRows : List SqlQueueRowSet :=
  joinQuery (mixedTables.queue.filter fun q => q.lockGuid = some fetchClaim.lockGuid) mixedTables

/-- A process whose queue layer works on the fetch of its first sweep. -/
def sweepingNode (readable : String → Bool) : Node String String where
  engine := {
    coordinator := { queueName := "default", workerCount := 1, aggressiveSweep := false }
    workers := [{}]
    phase := .awaitingJobs 0
    fetching := some ⟨0, "default", 1⟩
    asks := 1 }
  decoder := textDecoder readable

theorem sweepingNode_reached (readable : String → Bool) : Reaches Engine.step anyAction
    (Engine.configured "default" 1 false) (sweepingNode readable).engine :=
  reaches_of_execute (fun _ _ _ => trivial)
    (rfl : execute (fun (_ : Engine (Fetched String String)) _ => true) Engine.step
      (Engine.configured "default" 1 false)
      [.post .jobSweep, .receive 0 30 .returned, .layerReceive] = some _)

theorem decodable_jobs_dispatched_of_readable : ∃ after,
    (sweepingNode fun _ => true).engine.step
      (.layerReply ((sweepingNode fun _ => true).fetch mixedRows 40 700000000)) = some after ∧
    ∃ job, (sweepingNode fun _ => true).engine.Dispatches after
      { job, lockGuid := 40, claimedAt := 700000000 } := by
  refine ⟨_, rfl, ?_⟩
  have returned : Returns mixedTables (fun q => q.lockGuid = some 40) mixedRows := List.Perm.refl _
  have two : decodings (sweepingNode fun _ => true).decoder mixedRows = [(7, .ok _), (8, .ok _)] :=
    rfl
  have all := (decodable_jobs_dispatched_iff (sweepingNode_reached _) rfl rfl
    (by decide) returned (rfl : (sweepingNode fun _ => true).engine.step
      (.layerReply ((sweepingNode fun _ => true).fetch mixedRows 40 700000000)) = some _)).2.mpr
    (.inl (by
      rw [two]
      intro entry member
      rcases List.mem_cons.mp member with rfl | member
      · exact ⟨_, rfl⟩
      · exact List.mem_singleton.mp member ▸ ⟨_, rfl⟩))
  exact ⟨_, all (7, .ok _) (two ▸ List.mem_cons_self) _ rfl⟩

/-- Both jobs are claimed and the second one can be decoded, but the fetch throws on the text
of the first. -/
theorem decodable_job_lost : ∃ after,
    Reaches Engine.step anyAction (Engine.configured "default" 1 false)
      (sweepingNode fun text => text ≠ "\x7b").engine ∧
    Returns mixedTables (fun q => q.lockGuid = some 40) mixedRows ∧
    (sweepingNode fun text => text ≠ "\x7b").engine.step (.layerReply
      ((sweepingNode fun text => text ≠ "\x7b").fetch mixedRows 40 700000000)) = some after ∧
    ∃ job, (8, .ok job) ∈ decodings (textDecoder fun text => text ≠ "\x7b") mixedRows ∧
      OddJobWithMetadata.typeMissing job = false ∧
      ¬ (sweepingNode fun text => text ≠ "\x7b").engine.Dispatches after
        { job, lockGuid := 40, claimedAt := 700000000 } := by
  refine ⟨_, sweepingNode_reached _, List.Perm.refl _, rfl, _,
    List.mem_cons_of_mem _ List.mem_cons_self, rfl, ?_⟩
  rintro ⟨ticket, _, taken, _⟩
  cases taken

end OddJob
