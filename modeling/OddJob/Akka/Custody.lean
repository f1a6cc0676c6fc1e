import OddJob.Akka.Progress
import Mathlib.Data.List.Nodup
import Mathlib.Data.List.Perm.Subperm

/-! The jobs in the hands of an engine: each fetched job, up to the last command that the
queue layer processes for it. -/

namespace OddJob.Akka

variable {Job : Type}

theorem subperm_map {Item Result : Type} (f : Item → Result) {left right : List Item}
    (fewer : left.Subperm right) : (left.map f).Subperm (right.map f) := by
  obtain ⟨some, permuted, kept⟩ := fewer
  exact ⟨some.map f, permuted.map f, kept.map f⟩

theorem nodup_of_subperm {Item : Type} {left right : List Item} (fewer : left.Subperm right)
    (nodup : right.Nodup) : left.Nodup := by
  obtain ⟨some, permuted, kept⟩ := fewer
  exact permuted.nodup_iff.mp (nodup.sublist kept)

/-- What one actor of a pool gains and loses, the pool gains and loses. -/
theorem flatMap_set_subperm {Actor Item : Type} {pool : List Actor} {index : Nat}
    {old new : Actor} {lost gained : List Item} (contents : Actor → List Item)
    (found : pool[index]? = some old)
    (change : (lost ++ contents new).Subperm (gained ++ contents old)) :
    (lost ++ (pool.set index new).flatMap contents).Subperm
      (gained ++ pool.flatMap contents) := by
  refine (List.subperm_append_right (contents old)).mp ?_
  have before : (lost ++ (pool.set index new).flatMap contents ++ contents old).Perm
      (pool.flatMap contents ++ (lost ++ contents new)) := by
    rw [List.append_assoc]
    refine ((flatMap_set_perm contents found new).append_left lost).trans ?_
    exact List.perm_append_comm_assoc _ _ _
  have later : (pool.flatMap contents ++ (gained ++ contents old)).Perm
      (gained ++ pool.flatMap contents ++ contents old) := by
    rw [List.append_assoc]
    exact List.perm_append_comm_assoc _ _ _
  exact before.subperm.trans
    (((List.subperm_append_left _).mpr change).trans later.subperm)

theorem flatMap_subperm {Actor Item : Type} {pool : List Actor} {left right : Actor → List Item}
    (each : ∀ actor ∈ pool, (left actor).Subperm (right actor)) :
    (pool.flatMap left).Subperm (pool.flatMap right) := by
  induction pool with
  | nil => exact List.Subperm.refl []
  | cons actor rest ih =>
    rw [List.flatMap_cons, List.flatMap_cons]
    exact (each actor List.mem_cons_self).append
      (ih fun other member => each other (List.mem_cons_of_mem actor member))

/-- A job at this stage was handed to `ExecuteJob`. -/
def Stage.started : Stage → Bool
  | .executing | .executed _ | .handled _ _ => true
  | _ => false

/-- A job at this stage awaits a last command. -/
def Stage.pending : Stage → Bool
  | .missing | .handled _ _ => false
  | _ => true

namespace Engine

/-- The last command of the job has been processed. -/
def released (engine : Engine Job) (ticket : Nat) : Bool :=
  engine.processed.any fun command => command.mark ≠ .markJobInProgress ∧ command.ticket = ticket

/-- The fetched jobs that are not released, with their tickets. -/
def held (engine : Engine Job) : List (Job × Nat) :=
  engine.taken.zipIdx.filter fun entry => !engine.released entry.2

/-- The step of the engine runs no statement of its store. -/
def runsNoStatement (engine : Engine Job) : Action Job → Bool
  | .layerReply _ => false
  | .layerReceive =>
    match engine.layer with
    | .command _ :: _ => false
    | _ => true
  | _ => true

variable {engine after : Engine Job} {job : Job} {ticket : Nat}

theorem mem_held :
    (job, ticket) ∈ engine.held ↔
      engine.taken[ticket]? = some job ∧ engine.released ticket = false := by
  rw [held, List.mem_filter, List.mk_mem_zipIdx_iff_getElem?]
  simp

theorem held_tickets : (engine.held.map Prod.snd).Nodup := by
  have tickets : (engine.taken.zipIdx.map Prod.snd).Nodup := by
    rw [List.zipIdx_map_snd]
    exact List.nodup_range'
  exact tickets.sublist (List.filter_sublist.map _)

theorem held_congr (taken : after.taken = engine.taken)
    (processed : after.processed = engine.processed) : after.held = engine.held := by
  rw [held, held, taken]
  exact List.filter_congr fun entry _ => by rw [released, released, processed]

theorem released_mono (processed : engine.processed <+: after.processed)
    (done : engine.released ticket = true) : after.released ticket = true := by
  obtain ⟨command, member, last⟩ := List.any_eq_true.mp done
  exact List.any_eq_true.mpr ⟨command, processed.subset member, last⟩

theorem held_sublist {batch : List Job} (taken : after.taken = engine.taken ++ batch)
    (processed : engine.processed <+: after.processed) :
    after.held.Sublist (engine.held ++ batch.zipIdx engine.taken.length) := by
  rw [held, held, taken, List.zipIdx_append, Nat.zero_add, List.filter_append]
  refine List.Sublist.append ?_ List.filter_sublist
  apply List.monotone_filter_right
  intro entry kept
  cases done : engine.released entry.2 with
  | false => rfl
  | true => simp [released_mono processed done] at kept

theorem handleSweep_processed (engine : Engine Job) (silent : Bool) (now : Ticks)
    (hook : Outcome) : (engine.handleSweep silent now hook).processed = engine.processed := by
  simp only [handleSweep]
  split
  · rfl
  · cases silent <;> cases engine.coordinator.aggressiveSweep <;> rfl

end Engine

variable [OddJobWithMetadata Job] {engine after : Engine Job} {action : Action Job}
  {job : Job} {ticket : Nat}

private theorem receive_processed (message : CoordinatorMessage Job) (now : Ticks)
    (hook : Outcome) : (engine.receive message now hook).processed = engine.processed := by
  cases message with
  | shutDownQueues requester | custom | jobSuceeded request | jobFailed request => rfl
  | queueShutDown =>
    simp only [Engine.receive]
    split <;> rfl
  | jobSweep | silentRetrySweep =>
    simp only [Engine.receive]
    split
    · rfl
    · exact engine.handleSweep_processed _ now hook

theorem processed_of_step (taken : engine.step action = some after)
    (inside : engine.runsNoStatement action = true) : after.processed = engine.processed := by
  cases action with
  | post message =>
    obtain ⟨_, ⟨⟩⟩ := Option.ite_none_right_eq_some.mp taken
    rfl
  | receive index now hook =>
    simp only [Engine.step] at taken
    split at taken
    · cases taken
      exact receive_processed _ now hook
    · cases taken
  | askTimeout hook | tellInProgress | acknowledge =>
    simp only [Engine.step] at taken
    split at taken <;> cases taken
    rfl
  | next index hook =>
    simp only [Engine.step] at taken
    split at taken
    · cases taken
      rfl
    · split at taken
      · cases taken
        rfl
      · obtain ⟨worker, _, rfl⟩ := Option.map_eq_some_iff.mp taken
        rfl
    · cases taken
  | layerReceive =>
    simp only [Engine.step] at taken
    split at taken
    · rename_i message rest free front
      cases taken
      cases message with
      | command command => simp [Engine.runsNoStatement, front] at inside
      | _ => rfl
    · cases taken
  | layerReply jobs => cases inside
  | workerReceive index =>
    simp only [Engine.step] at taken
    split at taken
    · split at taken
      · rename_i message rest free front
        cases taken
        cases message <;> rfl
      · cases taken
    · cases taken
  | workerFinish index outcome =>
    simp only [Engine.step] at taken
    split at taken
    · obtain ⟨request, _, rfl⟩ := Option.map_eq_some_iff.mp taken
      rfl
    · cases taken

/-- A step that runs no statement leaves the engine what it holds. -/
theorem held_of_step (tracked : Tracked engine) (stepped : engine.step action = some after)
    (inside : engine.runsNoStatement action = true) :
    after.taken = engine.taken ∧ after.held = engine.held := by
  have taken : after.taken = engine.taken := by
    cases advance_of_moves tracked (moves_of_step stepped) with
    | still taken => exact taken
    | delivered batch reply =>
      subst reply
      cases inside
    | moved _ _ _ _ _ taken => exact taken
  exact ⟨taken, Engine.held_congr taken (processed_of_step stepped inside)⟩

/-- The end of a `GetJobs` brings its batch into the hands of the engine, if anything. -/
theorem held_of_layerReply {jobs : Option (List Job)}
    (stepped : engine.step (.layerReply jobs) = some after) :
    (after.taken.Subperm (jobs.getD [] ++ engine.taken)) ∧
      ((after.held.map Prod.fst).Subperm (jobs.getD [] ++ engine.held.map Prod.fst)) := by
  have processed := processed_of_moves (moves_of_step stepped)
  obtain ⟨batch, taken, within⟩ : ∃ batch, after.taken = engine.taken ++ batch ∧
      batch.Sublist (jobs.getD []) := by
    obtain ⟨_, _, taken | ⟨batch, rfl, taken⟩⟩ := taken_of_layerReply stepped
    · exact ⟨[], taken.trans (List.append_nil _).symm, List.nil_sublist _⟩
    · exact ⟨batch, taken, List.Sublist.refl _⟩
  have held := (Engine.held_sublist taken processed).map Prod.fst
  rw [List.map_append, List.zipIdx_map_fst] at held
  constructor
  · rw [taken]
    exact (within.append_left _).subperm.trans List.perm_append_comm.subperm
  · exact (held.trans (within.append_left _)).subperm.trans List.perm_append_comm.subperm

variable {command : Command} {rest : List LayerMessage}

/-- No last command is processed before the job has come to its last stage. -/
theorem unreleased_of_pending (told : Told engine) (inOrder : engine.InOrder)
    (pending : (engine.stage ticket).pending = true) : engine.released ticket = false := by
  by_contra done
  obtain ⟨command, member, last⟩ := List.any_eq_true.mp (Bool.not_eq_false _ ▸ done)
  obtain ⟨unlike, rfl⟩ := of_decide_eq_true last
  obtain ⟨job, _, _, listed⟩ :=
    told.command_stage (inOrder ▸ List.mem_append_left _ member : command ∈ engine.commands)
  cases stage : engine.stage command.ticket with
  | fetched =>
    rw [stage] at listed
    cases listed
  | missing | handled outcome now =>
    rw [stage] at pending
    cases pending
  | waiting | executing | executed outcome =>
    rw [stage] at listed
    exact unlike (congrArg Command.mark (List.mem_singleton.mp listed))

/-- The job that the queue layer is about to speak of is in the hands of the engine. -/
theorem held_of_front (told : Told engine) (inOrder : engine.InOrder)
    (front : engine.layer = .command command :: rest) :
    ∃ job, (job, command.ticket) ∈ engine.held ∧
      command.jobId = OddJobWithMetadata.jobId job ∧ Front engine command job := by
  obtain ⟨job, known, id, kind⟩ := told.front inOrder front
  refine ⟨job, Engine.mem_held.mpr ⟨known, ?_⟩, id, kind⟩
  rw [Engine.released, List.any_eq_false]
  intro earlier member
  rw [decide_eq_true_eq]
  rintro ⟨last, same⟩
  cases kind with
  | inProgress _ _ _ first => exact first earlier member same
  | terminal _ _ _ _ second => exact last (second earlier member same)
  | missing _ _ first => exact first earlier member same

/-- With its last command a job leaves the hands of the engine. -/
theorem held_of_last (front : engine.layer = .command command :: rest)
    (taken : engine.step .layerReceive = some after)
    (listed : (job, command.ticket) ∈ engine.held) (last : command.mark ≠ .markJobInProgress) :
    ((job, command.ticket) :: after.held).Subperm engine.held := by
  have same := processed_of_front front taken
  have fewer : after.held.Sublist (engine.held ++ [].zipIdx engine.taken.length) :=
    Engine.held_sublist (by rw [same, List.append_nil]) (by rw [same]; exact List.prefix_append _ _)
  rw [List.zipIdx_nil, List.append_nil] at fewer
  refine List.subperm_of_subset (List.nodup_cons.mpr ⟨?_, ?_⟩) ?_
  · intro kept
    have unreleased := (Engine.mem_held.mp kept).2
    simp [Engine.released, same, last] at unreleased
  · exact List.Nodup.of_map _ Engine.held_tickets
  · exact List.cons_subset.mpr ⟨listed, fewer.subset⟩

theorem held_of_inProgress (front : engine.layer = .command command :: rest)
    (taken : engine.step .layerReceive = some after)
    (first : command.mark = .markJobInProgress) : after.held = engine.held := by
  obtain rfl := processed_of_front front taken
  rw [Engine.held, Engine.held]
  refine List.filter_congr fun entry _ => ?_
  simp [Engine.released, first]

theorem executing_held (tracked : Tracked engine) (told : Told engine)
    (inOrder : engine.InOrder) :
    (engine.executing.map fun request => (request.jobData, request.ticket)).Subperm
      engine.held := by
  refine List.subperm_of_subset (List.Nodup.of_map Prod.snd ?_) fun entry member => ?_
  · rw [List.map_map]
    exact tracked.executing.once
  · obtain ⟨request, running, rfl⟩ := List.mem_map.mp member
    obtain ⟨stage, known, _⟩ := tracked.executing.fits request running
    exact Engine.mem_held.mpr ⟨known, unreleased_of_pending told inOrder (by rw [stage]; rfl)⟩

/-- An execution begins with a job in the hands of the engine. -/
theorem began_of_step (tracked : Tracked engine) (told : Told engine)
    (inOrder : engine.InOrder) (taken : engine.step action = some after) :
    after.began = engine.began ∨ ∃ entry ∈ engine.held,
      (engine.stage entry.2).started = false ∧
      after.began = engine.began ++ [⟨entry.1, entry.2⟩] := by
  cases advance_of_moves tracked (moves_of_step taken) with
  | still _ _ began => exact .inl began
  | delivered _ _ _ _ began => exact .inl began
  | moved ticket job reached known next _ _ began =>
    cases reached with
    | executing =>
      have waiting : engine.stage ticket = .waiting := by
        generalize engine.stage ticket = stage at next ⊢
        cases next
        rfl
      refine .inr ⟨(job, ticket), Engine.mem_held.mpr ⟨known, ?_⟩, ?_, began⟩
      · exact unreleased_of_pending told inOrder (by rw [waiting]; rfl)
      · rw [waiting]
        rfl
    | _ => exact .inl (began.trans (List.append_nil _))

/-- No fetched job is executed twice. -/
structure Begun (engine : Engine Job) : Prop where
  once : (engine.began.map ExecuteJobRequest.ticket).Nodup
  known : ∀ request ∈ engine.began, engine.taken[request.ticket]? = some request.jobData ∧
    (engine.stage request.ticket).started = true

omit [OddJobWithMetadata Job] in
theorem started_of_leads {stage reached : Stage} (next : stage.Leads reached)
    (before : stage.started = true) : reached.started = true := by
  cases next with
  | missing | dispatched | started => cases before
  | finished | handled => rfl

omit [OddJobWithMetadata Job] in
private theorem Begun.kept (valid : Begun engine) {request : ExecuteJobRequest Job}
    {reached : Stage} (next : (engine.stage ticket).Leads reached) (member : request ∈ engine.began) :
    (if request.ticket = ticket then reached else engine.stage request.ticket).started = true := by
  obtain ⟨_, before⟩ := valid.known request member
  split
  · rename_i same
    exact started_of_leads next (same ▸ before)
  · exact before

theorem Begun.step (valid : Begun engine) (tracked : Tracked engine)
    (stepped : engine.step action = some after) : Begun after := by
  cases advance_of_moves tracked (moves_of_step stepped) with
  | still taken stage began =>
    refine ⟨began ▸ valid.once, ?_⟩
    rw [taken, stage, began]
    exact valid.known
  | delivered batch reply taken stage began =>
    refine ⟨began ▸ valid.once, ?_⟩
    rw [taken, stage, began]
    intro request member
    obtain ⟨known, started⟩ := valid.known request member
    exact ⟨List.getElem?_append_left (List.getElem?_eq_some_iff.mp known).1 ▸ known, started⟩
  | moved ticket job reached known next taken stage began =>
    split at began
    · rename_i executing
      subst executing
      have fresh : ticket ∉ engine.began.map ExecuteJobRequest.ticket := by
        intro listed
        obtain ⟨request, member, rfl⟩ := List.mem_map.mp listed
        have before := (valid.known request member).2
        generalize engine.stage request.ticket = stage at next before
        cases next
        cases before
      constructor
      · rw [began, List.map_append, List.map_singleton, ← List.concat_eq_append]
        exact valid.once.concat fresh
      · rw [taken, stage, began]
        intro request member
        rcases List.mem_append.mp member with older | newer
        · exact ⟨(valid.known request older).1, valid.kept next older⟩
        · obtain rfl := List.mem_singleton.mp newer
          exact ⟨known, by simp [Stage.started]⟩
    · rw [List.append_nil] at began
      refine ⟨began ▸ valid.once, ?_⟩
      rw [taken, stage, began]
      exact fun request member =>
        ⟨(valid.known request member).1, valid.kept next member⟩

theorem begun_of_reaches {queueName : String} {numWorkers : Nat} {aggressiveSweep : Bool}
    {allowed : Engine Job → Action Job → Prop}
    (reached : Transition.Reaches Engine.step allowed
      (Engine.configured queueName numWorkers aggressiveSweep) engine) : Begun engine := by
  induction reached with
  | refl => exact ⟨List.nodup_nil, fun request none => nomatch none⟩
  | next earlier _ stepped ih => exact ih.step (tracked_of_reaches earlier) stepped

omit [OddJobWithMetadata Job] in
theorem Begun.subperm (valid : Begun engine) :
    (engine.began.map ExecuteJobRequest.jobData).Subperm engine.taken := by
  have entries : (engine.began.map fun request => (request.jobData, request.ticket)).Subperm
      engine.taken.zipIdx := by
    refine List.subperm_of_subset (List.Nodup.of_map Prod.snd ?_) fun entry member => ?_
    · rw [List.map_map]
      exact valid.once
    · obtain ⟨request, listed, rfl⟩ := List.mem_map.mp member
      exact List.mk_mem_zipIdx_iff_getElem?.mpr (valid.known request listed).1
  have jobs := subperm_map Prod.fst entries
  rwa [List.map_map, List.zipIdx_map_fst] at jobs

end OddJob.Akka
