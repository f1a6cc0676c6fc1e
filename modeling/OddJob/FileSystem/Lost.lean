import OddJob.FileSystem.Custody

/-! Jobs that no running process has in its hands, though the file says they were fetched: of
a process that crashed, or of a batch that came too late. Unlike a claim in the database, a
fetch from the file never expires, so nobody takes them over. -/

namespace OddJob.FileSystem

open Akka Linq Transition

variable {CliType Value : Type}

/-- A fetch leaves a job that it cannot select as it is. -/
theorem getJobs_keeps {queueNames : List String} {fetchSize : Int} {now queueTime : Nat → Ticks}
    {serializer after results : List (FileSystemJobMetaData CliType Value)}
    {q : FileSystemJobMetaData CliType Value}
    (done : getJobs queueNames fetchSize now queueTime serializer = .ok (after, results))
    (member : q ∈ serializer) (unfit : ∀ now, selects queueNames now q ≠ .ok true) :
    q ∈ after := by
  obtain ⟨filtered, taken, rfl, rfl⟩ := getJobs_eq_ok done
  obtain ⟨kept, tested, rfl⟩ := fetched_eq_ok taken
  obtain ⟨place, found⟩ := List.mem_iff_getElem?.mp member
  have row : (q, place) ∈ serializer.zipIdx := List.mk_mem_zipIdx_iff_getElem?.mpr found
  refine List.mem_map.mpr ⟨(q, place), row, if_neg fun chosen => ?_⟩
  obtain ⟨⟨other, there⟩, listed, same⟩ := List.any_eq_true.mp chosen
  obtain rfl : there = place := of_decide_eq_true same
  have known := List.mk_mem_zipIdx_iff_getElem?.mp ((fetched_rows taken).1.subset listed)
  obtain rfl : other = q := Option.some.inj (known.symm.trans found)
  have chosen : (other, there) ∈ kept := mem_orderBy.mp (List.mem_of_mem_take listed)
  have passed := passes_of_mem_whereThrows tested chosen
  exact unfit (now there) passed

theorem writeJobState_keeps {jobId : Guid} {mark : Mark} {now : Ticks}
    {serializer after : List (FileSystemJobMetaData CliType Value)}
    {q : FileSystemJobMetaData CliType Value}
    (done : writeJobState jobId (transformFunc mark now) serializer = .ok after)
    (member : q ∈ serializer) (foreign : q.jobId ≠ jobId) : q ∈ after := by
  induction serializer generalizing after with
  | nil => cases member
  | cons first rest ih =>
    unfold writeJobState at done
    split at done
    · rename_i own
      obtain ⟨set, _, rfl⟩ := map_eq_ok done
      rcases List.mem_cons.mp member with rfl | later
      · exact absurd own foreign
      · exact List.mem_cons_of_mem set later
    · obtain ⟨later, rested, rfl⟩ := map_eq_ok done
      rcases List.mem_cons.mp member with rfl | inside
      · exact List.mem_cons_self
      · exact List.mem_cons_of_mem first (ih rested inside)

namespace Engines

variable {engines after final : Engines CliType Value} {action : EnginesAction CliType Value}
  {index : Nat} {process changed : Process CliType Value}
  {q : FileSystemJobMetaData CliType Value}

/-- Some process that runs has the job in its hands. -/
def Held (engines : Engines CliType Value) (jobId : Guid) : Prop :=
  ∃ index process, engines.running index = some process ∧
    jobId ∈ process.hands.map FileSystemJobMetaData.jobId

/-- The job was fetched, and no process that runs has it. -/
structure Lost (engines : Engines CliType Value) (q : FileSystemJobMetaData CliType Value) :
    Prop where
  stored : q ∈ engines.serializer
  busy : Busy q.entry
  unheld : ¬engines.Held q.jobId

private theorem held_update {jobId : Guid} (running : engines.running index = some process)
    (more : jobId ∈ changed.hands.map FileSystemJobMetaData.jobId →
      jobId ∈ process.hands.map FileSystemJobMetaData.jobId)
    (held : (engines.update index changed).Held jobId) : engines.Held jobId := by
  obtain ⟨other, found, runs, listed⟩ := held
  by_cases same : other = index
  · subst same
    obtain ⟨inside, _⟩ := List.getElem?_eq_some_iff.mp (process_of_running running).1
    have set := (process_of_running runs).1
    rw [update, List.getElem?_set_self inside] at set
    obtain rfl := Option.some.inj set
    exact ⟨other, process, running, more listed⟩
  · refine ⟨other, found, ?_, listed⟩
    rwa [Engines.running, update, List.getElem?_set_ne (Ne.symm same)] at runs

private theorem held_of_moves (custody : Custody engines) (move : Moves engines action after)
    {jobId : Guid} (held : after.Held jobId) :
    engines.Held jobId ∨ ∃ q ∈ engines.serializer, q.jobId = jobId ∧ q.entry.Waits := by
  have kept {process changed : Process CliType Value}
      (fewer : changed.hands.Subperm process.hands)
      (listed : jobId ∈ changed.hands.map FileSystemJobMetaData.jobId) :
      jobId ∈ process.hands.map FileSystemJobMetaData.jobId :=
    (subperm_map FileSystemJobMetaData.jobId fewer).subset listed
  cases move with
  | added => exact .inl held
  | crashed index process running =>
    have same : ({ process with crashed := true } : Process CliType Value).hands.Subperm
        process.hands := List.Subperm.refl _
    exact .inl (held_update running (kept same) held)
  | acted index process action engine running inside stepped =>
    obtain ⟨_, same⟩ := held_of_step (custody.tracked (process_of_running running).1).1 stepped
      inside
    refine .inl (held_update running (kept ?_) held)
    rw [Process.hands, Process.hands, same]
  | fetched index process request now queueTime serializer results running free done =>
    by_cases waits : ∃ q ∈ engines.serializer, q.jobId = jobId ∧ q.entry.Waits
    · exact .inr waits
    · refine .inl (held_update running (fun listed => ?_) held)
      rw [Process.hands, List.map_append] at listed
      rcases List.mem_append.mp listed with newer | older
      · obtain ⟨copy, taken, rfl⟩ := List.mem_map.mp newer
        obtain ⟨q, stored, own, _, waiting⟩ := waiting_of_getJobs done copy taken
        exact absurd ⟨q, stored, own, waiting⟩ waits
      · rw [Process.hands, List.map_append]
        exact List.mem_append_right _ older
  | replied index process results engine running returned stepped =>
    refine .inl (held_update running (kept ?_) held)
    rw [Process.hands, Process.hands, returned]
    exact (held_of_layerReply stepped).2
  | threw index process engine running stepped =>
    refine .inl (held_update running (kept ?_) held)
    exact (held_of_layerReply stepped).2.trans (List.sublist_append_right _ _).subperm
  | marked index process command rest engine now serializer running front stepped done =>
    obtain ⟨job, speaks⟩ := custody.speaks (process_of_running running).1 front stepped
    exact .inl (held_update running (kept speaks.hands) held)
  | lost index process command rest engine now reaches running front stepped failed =>
    obtain ⟨job, speaks⟩ := custody.speaks (process_of_running running).1 front stepped
    exact .inl (held_update running (kept speaks.hands) held)

private theorem process_of_moves (move : Moves engines action after) :
    after.processes = engines.processes ∨
    ∃ index process changed, engines.running index = some process ∧
      after.processes = engines.processes.set index changed ∧
      (changed.engine = process.engine ∨
        ∃ step, process.engine.step step = some changed.engine) := by
  cases move with
  | added => exact .inl rfl
  | crashed index process running => exact .inr ⟨index, process, _, running, rfl, .inl rfl⟩
  | fetched index process _ _ _ _ _ running =>
    exact .inr ⟨index, process, _, running, rfl, .inl rfl⟩
  | acted index process _ _ running _ taken | replied index process _ _ running _ taken
  | threw index process _ running taken | marked index process _ _ _ _ _ running _ taken
  | lost index process _ _ _ _ _ running _ taken =>
    exact .inr ⟨index, process, _, running, rfl, .inr ⟨_, taken⟩⟩

/-- Nobody begins with a job that no process has in its hands. -/
theorem executionsOf_of_moves {jobId : Guid} (unheld : ¬engines.Held jobId) (custody : Custody engines)
    (move : Moves engines action after) :
    after.executionsOf jobId = engines.executionsOf jobId := by
  rcases process_of_moves move with same | ⟨index, process, changed, running, set, engine⟩
  · rw [executionsOf, executionsOf, same]
  · obtain ⟨found, _⟩ := process_of_running running
    obtain ⟨tracked, told, inOrder, _⟩ := custody.tracked found
    have each : (changed.engine.began.map fun request => request.jobData.jobId).count jobId =
        (process.engine.began.map fun request => request.jobData.jobId).count jobId := by
      rcases engine with same | ⟨step, taken⟩
      · rw [same]
      · rcases began_of_step tracked told inOrder taken with same | ⟨entry, held, _, began⟩
        · rw [same]
        · have foreign : entry.1.jobId ≠ jobId := fun same => unheld
            ⟨index, process, running, List.mem_map.mpr
              ⟨entry.1, List.mem_append_right _ (List.mem_map_of_mem held), same⟩⟩
          rw [began, List.map_append, List.count_append]
          simp [foreign]
    have exchanged := (flatMap_set_perm (fun process : Process CliType Value =>
      process.engine.began.map fun request => request.jobData.jobId) found changed).count_eq
        jobId
    rw [List.count_append, List.count_append, each] at exchanged
    rw [executionsOf, executionsOf, set]
    exact Nat.add_right_cancel exchanged

namespace Lost

private theorem row (lost : Lost engines q) (custody : Custody engines)
    (move : Moves engines action after) : q ∈ after.serializer := by
  cases move with
  | added => exact List.mem_append_left _ lost.stored
  | crashed | acted | replied | threw | lost => exact lost.stored
  | fetched _ _ _ _ _ _ _ _ _ done =>
    exact getJobs_keeps done lost.stored fun now passed =>
      lost.busy.rests (waiting_of_selects passed)
  | marked index process command rest engine now serializer running front taken done =>
    obtain ⟨job, speaks⟩ := custody.speaks (process_of_running running).1 front taken
    refine writeJobState_keeps done lost.stored fun same => lost.unheld ?_
    exact ⟨index, process, running, List.mem_map.mpr ⟨job, speaks.held, by rw [same, speaks.id]⟩⟩

private theorem step (lost : Lost engines q) (custody : Custody engines)
    (move : Moves engines action after) : Lost after q := by
  refine ⟨lost.row custody move, lost.busy, fun held => ?_⟩
  rcases held_of_moves custody move held with before | ⟨other, stored, own, waits⟩
  · exact lost.unheld before
  · have one := custody.entry_unique (List.mem_map_of_mem stored)
      (List.mem_map_of_mem lost.stored) own
    exact lost.busy.rests (one ▸ waits)

end Lost

/-- So are the jobs that a process had in its hands when it crashed. -/
theorem lost_of_crash {settings : List ProcessSettings}
    (reached : Reaches step anyAction (configured settings) engines)
    (found : engines.processes[index]? = some process) (crashed : process.crashed = true)
    {copy : FileSystemJobMetaData CliType Value} (held : copy ∈ process.hands) :
    ∃ q, q.jobId = copy.jobId ∧ Lost engines q := by
  have custody := custody_of_reaches reached
  obtain ⟨e, present, own, _, busy⟩ := custody.known copy
    (List.mem_flatMap.mpr ⟨process, List.mem_of_getElem? found, held⟩)
  obtain ⟨q, stored, rfl⟩ := List.mem_map.mp present
  refine ⟨q, own, stored, busy, ?_⟩
  rintro ⟨other, alive, running, listed⟩
  obtain ⟨there, runs⟩ := process_of_running running
  have apart : other ≠ index := by
    rintro rfl
    obtain rfl : alive = process := Option.some.inj (there.symm.trans found)
    rw [runs] at crashed
    cases crashed
  -- the hands of two processes have no job in common
  have alone := custody.alone
  rw [hands, List.map_flatMap, List.nodup_flatMap] at alone
  have here : q.jobId ∈ process.hands.map FileSystemJobMetaData.jobId :=
    List.mem_map.mpr ⟨copy, held, own.symm⟩
  obtain ⟨bound, rfl⟩ := List.getElem?_eq_some_iff.mp there
  obtain ⟨bound', rfl⟩ := List.getElem?_eq_some_iff.mp found
  rcases Nat.lt_or_gt_of_ne apart with before | later
  · exact List.pairwise_iff_getElem.mp alone.2 _ _ bound bound' before listed here
  · exact List.pairwise_iff_getElem.mp alone.2 _ _ bound' bound later here listed

/-- The first process crashes while it executes the job, and the second one asks for jobs. -/
def sharedLater : List (EnginesAction String String) :=
  sharedFetch 1 30 ++ [.act 1 (.next 0 .returned)]

end Engines

end OddJob.FileSystem
