import OddJob.Akka.Moves

/-! Where the requests of an engine are, and that every fetched job is in the
one place its stage names. -/

namespace OddJob.Akka

variable {Job : Type}

def JobWorker.waiting (worker : JobWorker Job) : List (ExecuteJobRequest Job) :=
  worker.mailbox.filterMap fun
    | .executeJobRequest request => some request
    | .shutDownQueues => none

def CoordinatorMessage.result? : CoordinatorMessage Job → Option (ExecuteJobRequest Job × Outcome)
  | .jobSuceeded request => some (request, .returned)
  | .jobFailed request => some (request, .threw)
  | _ => none

theorem CoordinatorMessage.result?_eq_none {message : CoordinatorMessage Job} :
    message.result? = none ↔ message.isResult = false := by
  cases message <;> simp [result?, isResult]

/-- The job has been handed to a worker and its result not been handled. -/
def Stage.inFlight : Stage → Bool
  | .waiting | .executing | .executed _ => true
  | _ => false

namespace Engine

def waiting (engine : Engine Job) : List (ExecuteJobRequest Job) :=
  engine.workers.flatMap JobWorker.waiting

def executing (engine : Engine Job) : List (ExecuteJobRequest Job) :=
  engine.workers.flatMap fun worker => worker.running.toList

def results (engine : Engine Job) : List (ExecuteJobRequest Job × Outcome) :=
  engine.mailbox.filterMap CoordinatorMessage.result?

/-- What the coordinator's `foreach` has still to visit. -/
def queued (engine : Engine Job) : List (Job × Nat) :=
  match engine.phase with
  | .queueing rest => rest
  | .marking _ _ rest => rest
  | _ => []

end Engine

theorem flatMap_set_perm {Actor Item : Type} {pool : List Actor} {index : Nat} {old : Actor}
    (contents : Actor → List Item) (found : pool[index]? = some old) (new : Actor) :
    ((pool.set index new).flatMap contents ++ contents old).Perm
      (pool.flatMap contents ++ contents new) := by
  induction pool generalizing index with
  | nil => simp at found
  | cons head rest ih =>
    cases index with
    | zero =>
      obtain rfl : head = old := by simpa using found
      simp only [List.set_cons_zero, List.flatMap_cons, List.append_assoc]
      exact ((List.perm_append_comm.append_left _).trans List.perm_append_comm).trans
        (by simp only [List.append_assoc]; exact List.Perm.refl _)
    | succ index =>
      simpa only [List.set_cons_succ, List.flatMap_cons, List.append_assoc] using
        (ih (by simpa using found)).append_left (contents head)

theorem flatMap_set_gain {Actor Item : Type} {pool : List Actor} {index : Nat} {old new : Actor}
    {item : Item} (contents : Actor → List Item) (found : pool[index]? = some old)
    (gained : (contents new).Perm (item :: contents old)) :
    ((pool.set index new).flatMap contents).Perm (item :: pool.flatMap contents) := by
  have exchanged := (flatMap_set_perm contents found new).trans (gained.append_left _)
  exact (List.perm_append_right_iff _).mp (exchanged.trans List.perm_middle)

theorem flatMap_set_lose {Actor Item : Type} {pool : List Actor} {index : Nat} {old new : Actor}
    {item : Item} (contents : Actor → List Item) (found : pool[index]? = some old)
    (lost : (contents old).Perm (item :: contents new)) :
    (pool.flatMap contents).Perm (item :: (pool.set index new).flatMap contents) := by
  have exchanged := (flatMap_set_perm contents found new).symm.trans (lost.append_left _)
  exact (List.perm_append_right_iff _).mp (exchanged.trans List.perm_middle)

theorem flatMap_set_same {Actor Item : Type} {pool : List Actor} {index : Nat} {old new : Actor}
    (contents : Actor → List Item) (found : pool[index]? = some old)
    (same : contents new = contents old) :
    (pool.set index new).flatMap contents = pool.flatMap contents := by
  induction pool generalizing index with
  | nil => simp at found
  | cons head rest ih =>
    cases index with
    | zero =>
      obtain rfl : head = old := by simpa using found
      simp [same]
    | succ index => simp [ih (by simpa using found)]

/-- Each item of a place has a ticket of its own, at a stage that fits the place. -/
structure Placed {Item : Type} (items : List Item) (ticket : Item → Nat)
    (fits : Item → Stage → Prop) (stage : Nat → Stage) : Prop where
  fits : ∀ item ∈ items, fits item (stage (ticket item))
  once : (items.map ticket).Nodup

namespace Placed

variable {Item : Type} {items left : List Item} {ticket : Item → Nat}
  {fits : Item → Stage → Prop} {stage after : Nat → Stage} {moved : Nat} {reached : Stage}

theorem perm (valid : Placed items ticket fits stage) (same : left.Perm items) :
    Placed left ticket fits stage :=
  ⟨fun item member => valid.fits item (same.mem_iff.mp member),
    (same.map ticket).nodup_iff.mpr valid.once⟩

theorem keep (valid : Placed items ticket fits stage)
    (recorded : ∀ other, after other = if other = moved then reached else stage other)
    (elsewhere : ∀ item ∈ items, ¬ fits item (stage moved)) : Placed items ticket fits after := by
  refine ⟨fun item member => ?_, valid.once⟩
  have different : ticket item ≠ moved := fun same =>
    elsewhere item member (same ▸ valid.fits item member)
  simpa only [recorded, different, ↓reduceIte] using valid.fits item member

theorem lose {item : Item} (valid : Placed items ticket fits stage)
    (recorded : ∀ other, after other = if other = moved then reached else stage other)
    (split : items.Perm (item :: left)) (same : ticket item = moved) :
    Placed left ticket fits after := by
  have once := (split.map ticket).nodup_iff.mp valid.once
  obtain ⟨absent, restOnce⟩ := List.nodup_cons.mp once
  refine ⟨fun other member => ?_, restOnce⟩
  have different : ticket other ≠ moved := fun equal =>
    absent (List.mem_map.mpr ⟨other, member, equal.trans same.symm⟩)
  simpa only [recorded, different, ↓reduceIte] using
    valid.fits other (split.mem_iff.mpr (List.mem_cons_of_mem _ member))

theorem gain {item : Item} (valid : Placed items ticket fits stage)
    (recorded : ∀ other, after other = if other = moved then reached else stage other)
    (elsewhere : ∀ item ∈ items, ¬ fits item (stage moved)) (split : left.Perm (item :: items))
    (same : ticket item = moved) (accepted : fits item reached) : Placed left ticket fits after := by
  refine (Placed.mk ?_ ?_ : Placed (item :: items) ticket fits after).perm split
  · intro other member
    rcases List.mem_cons.mp member with rfl | older
    · simpa only [recorded, same, ↓reduceIte] using accepted
    · exact (valid.keep recorded elsewhere).fits other older
  · refine List.nodup_cons.mpr ⟨?_, valid.once⟩
    intro present
    obtain ⟨other, member, equal⟩ := List.mem_map.mp present
    exact elsewhere other member (same ▸ equal ▸ valid.fits other member)

end Placed

variable [OddJobWithMetadata Job]

/-- The request carries the job fetched under its ticket, and the job has a type. -/
def Engine.Fetched (engine : Engine Job) (request : ExecuteJobRequest Job) : Prop :=
  engine.taken[request.ticket]? = some request.jobData ∧
    OddJobWithMetadata.typeMissing request.jobData = false

/-- Stages a fetched job can reach: only jobs without a type go missing. -/
def Stage.Suits (stage : Stage) (job : Job) : Prop :=
  if OddJobWithMetadata.typeMissing job then stage = .fetched ∨ stage = .missing
  else stage ≠ .missing

/-- Every request is where its stage says, and nowhere twice. -/
structure Tracked (engine : Engine Job) : Prop where
  queued : Placed engine.queued Prod.snd
    (fun entry stage => stage = .fetched ∧ engine.taken[entry.2]? = some entry.1) engine.stage
  waiting : Placed engine.waiting ExecuteJobRequest.ticket
    (fun request stage => stage = .waiting ∧ engine.Fetched request) engine.stage
  executing : Placed engine.executing ExecuteJobRequest.ticket
    (fun request stage => stage = .executing ∧ engine.Fetched request) engine.stage
  results : Placed engine.results (fun result => result.1.ticket)
    (fun result stage => stage = .executed result.2 ∧ engine.Fetched result.1) engine.stage
  marking : ∀ job ticket rest, engine.phase = .marking job ticket rest →
    engine.Fetched ⟨job, ticket⟩ ∧ (engine.stage ticket).inFlight = true
  reached : ∀ ticket < engine.taken.length, engine.stage ticket = .fetched →
    ticket ∈ engine.queued.map Prod.snd
  untaken : ∀ ticket, engine.taken.length ≤ ticket → engine.stage ticket = .fetched
  suits : ∀ ticket job, engine.taken[ticket]? = some job → (engine.stage ticket).Suits job

theorem Tracked.transfer {engine after : Engine Job} (valid : Tracked engine)
    (stage : after.stage = engine.stage) (taken : after.taken = engine.taken)
    (queued : after.queued = engine.queued)
    (marking : ∀ job ticket rest, after.phase = .marking job ticket rest →
      engine.phase = .marking job ticket rest)
    (waiting : after.waiting = engine.waiting) (executing : after.executing = engine.executing)
    (results : after.results.Perm engine.results) : Tracked after := by
  have fetched : after.Fetched = engine.Fetched := by
    funext request
    rw [Engine.Fetched, Engine.Fetched, taken]
  constructor
  · rw [queued, stage, taken]; exact valid.queued
  · rw [waiting, stage, fetched]; exact valid.waiting
  · rw [executing, stage, fetched]; exact valid.executing
  · rw [stage, fetched]; exact valid.results.perm results
  · intro job ticket rest phase
    rw [fetched, stage]
    exact valid.marking job ticket rest (marking job ticket rest phase)
  · rw [queued, stage, taken]; exact valid.reached
  · rw [stage, taken]; exact valid.untaken
  · rw [stage, taken]; exact valid.suits

theorem tracked_configured (queueName : String) (numWorkers : Nat) (aggressiveSweep : Bool) :
    Tracked (Engine.configured queueName numWorkers aggressiveSweep : Engine Job) := by
  have empty {Item : Type} {ticket : Item → Nat} {fits : Item → Stage → Prop}
      {stage : Nat → Stage} {items : List Item} (none : items = []) :
      Placed items ticket fits stage := by
    subst none
    exact ⟨by simp, by simp⟩
  constructor
  · exact empty rfl
  · exact empty (by simp [Engine.waiting, Engine.configured, JobWorker.waiting])
  · exact empty (by simp [Engine.executing, Engine.configured])
  · exact empty rfl
  · intro job ticket rest phase
    cases phase
  · intro ticket inside
    cases inside
  · intro ticket _
    rfl
  · intro ticket job taken
    simp [Engine.configured] at taken

omit [OddJobWithMetadata Job] in
theorem results_of_split {engine : Engine Job} {message : CoordinatorMessage Job}
    {rest : List (CoordinatorMessage Job)} (split : engine.mailbox.Perm (message :: rest))
    (other : message.isResult = false) :
    (rest.filterMap CoordinatorMessage.result?).Perm engine.results := by
  have kept := split.filterMap CoordinatorMessage.result?
  rw [List.filterMap_cons_none (CoordinatorMessage.result?_eq_none.mpr other)] at kept
  exact kept.symm

omit [OddJobWithMetadata Job] in
theorem sweep_not_result {message : CoordinatorMessage Job}
    (sweep : message = .jobSweep ∨ message = .silentRetrySweep) : message.isResult = false := by
  rcases sweep with same | same <;> subst same <;> rfl

section Recorded

variable {engine : Engine Job} {after : Nat → Stage} {moved : Nat} {reached : Stage}

private theorem untaken_of_recorded (valid : Tracked engine) {job : Job}
    (known : engine.taken[moved]? = some job)
    (recorded : ∀ other, after other = if other = moved then reached else engine.stage other) :
    ∀ ticket, engine.taken.length ≤ ticket → after ticket = .fetched := by
  intro ticket bound
  have inside := (List.getElem?_eq_some_iff.mp known).1
  have different : ticket ≠ moved := fun same => absurd inside (Nat.not_lt.mpr (same ▸ bound))
  simpa only [recorded, different, ↓reduceIte] using valid.untaken ticket bound

private theorem suits_of_recorded (valid : Tracked engine) {job : Job}
    (known : engine.taken[moved]? = some job) (suitable : reached.Suits job)
    (recorded : ∀ other, after other = if other = moved then reached else engine.stage other) :
    ∀ ticket other, engine.taken[ticket]? = some other → (after ticket).Suits other := by
  intro ticket other found
  rw [recorded]
  split
  · rename_i same
    subst same
    exact Option.some.inj (known.symm.trans found) ▸ suitable
  · exact valid.suits ticket other found

private theorem reached_of_recorded (valid : Tracked engine) {queued : List (Job × Nat)}
    (recorded : ∀ other, after other = if other = moved then reached else engine.stage other)
    (progress : reached ≠ .fetched)
    (remaining : ∀ ticket ∈ engine.queued.map Prod.snd, ticket ≠ moved →
      ticket ∈ queued.map Prod.snd) :
    ∀ ticket < engine.taken.length, after ticket = .fetched → ticket ∈ queued.map Prod.snd := by
  intro ticket bound fresh
  rw [recorded] at fresh
  split at fresh
  · exact absurd fresh progress
  · exact remaining ticket (valid.reached ticket bound fresh) ‹_›

end Recorded

private theorem Tracked.resultHandled {engine : Engine Job} (valid : Tracked engine)
    {request : ExecuteJobRequest Job} {outcome : Outcome} {now : Ticks} {hook : Outcome}
    {rest : List (CoordinatorMessage Job)} (idle : engine.phase = .idle)
    (split : engine.results.Perm ((request, outcome) :: rest.filterMap CoordinatorMessage.result?)) :
    Tracked ({ engine with mailbox := rest }.handleResult request outcome now hook) := by
  obtain ⟨stage, taken, typed⟩ := valid.results.fits (request, outcome)
    (split.mem_iff.mpr List.mem_cons_self)
  have recorded : ∀ other,
      ({ engine with mailbox := rest }.handleResult request outcome now hook).stage other =
        if other = request.ticket then .handled outcome now else engine.stage other :=
    fun _ => rfl
  have suitable : (Stage.handled outcome now).Suits request.jobData := by
    simp [Stage.Suits, typed]
  have untaken := untaken_of_recorded valid taken recorded
  have suits := suits_of_recorded valid taken suitable recorded
  constructor
  · exact valid.queued.keep recorded fun entry _ fits => by simp [stage] at fits
  · exact valid.waiting.keep recorded fun entry _ fits => by simp [stage] at fits
  · exact valid.executing.keep recorded fun entry _ fits => by simp [stage] at fits
  · exact valid.results.lose recorded split rfl
  · intro job ticket others phase
    exact absurd (idle.symm.trans phase) (by simp)
  · exact reached_of_recorded valid recorded (by simp) fun _ member _ => member
  · exact untaken
  · exact suits

private theorem Tracked.missingFailed {engine : Engine Job} (valid : Tracked engine) {job : Job}
    {ticket : Nat} {rest : List (Job × Nat)} {hook : Outcome}
    (looping : engine.phase = .queueing ((job, ticket) :: rest))
    (missing : OddJobWithMetadata.typeMissing job = true) :
    Tracked (engine.failMissing job ticket rest hook) := by
  have queued : engine.queued = (job, ticket) :: rest := by simp only [Engine.queued, looping]
  obtain ⟨stage, taken⟩ := valid.queued.fits (job, ticket) (by simp [queued])
  have recorded : ∀ other, (engine.failMissing job ticket rest hook).stage other =
      if other = ticket then .missing else engine.stage other := fun _ => rfl
  have suitable : Stage.missing.Suits job := by simp [Stage.Suits, missing]
  have untaken := untaken_of_recorded valid taken recorded
  have suits := suits_of_recorded valid taken suitable recorded
  constructor
  · exact valid.queued.lose recorded (.of_eq queued) rfl
  · exact valid.waiting.keep recorded fun entry _ fits => by simp [stage] at fits
  · exact valid.executing.keep recorded fun entry _ fits => by simp [stage] at fits
  · exact valid.results.keep recorded fun entry _ fits => by simp [stage] at fits
  · intro other number others phase
    cases phase
  · apply reached_of_recorded valid recorded (by simp)
    intro number member different
    rw [queued] at member
    exact (List.mem_cons.mp member).resolve_left different
  · exact untaken
  · exact suits

private theorem Tracked.dispatched {engine : Engine Job} (valid : Tracked engine) {job : Job}
    {ticket index : Nat} {rest : List (Job × Nat)} {worker : JobWorker Job}
    (looping : engine.phase = .queueing ((job, ticket) :: rest))
    (typed : OddJobWithMetadata.typeMissing job = false)
    (routee : engine.workers[index]? = some worker) :
    Tracked (engine.dispatch job ticket rest index worker) := by
  have queued : engine.queued = (job, ticket) :: rest := by simp only [Engine.queued, looping]
  obtain ⟨stage, taken⟩ := valid.queued.fits (job, ticket) (by simp [queued])
  have recorded : ∀ other, (engine.dispatch job ticket rest index worker).stage other =
      if other = ticket then .waiting else engine.stage other := fun _ => rfl
  have suitable : Stage.waiting.Suits job := by simp [Stage.Suits, typed]
  have untaken := untaken_of_recorded valid taken recorded
  have suits := suits_of_recorded valid taken suitable recorded
  have grown : (JobWorker.waiting
      { worker with mailbox := worker.mailbox ++ [.executeJobRequest ⟨job, ticket⟩] }).Perm
      (⟨job, ticket⟩ :: worker.waiting) := by
    simp [JobWorker.waiting, List.perm_append_singleton]
  have unmoved : (engine.dispatch job ticket rest index worker).executing = engine.executing :=
    flatMap_set_same _ routee rfl
  constructor
  · exact valid.queued.lose recorded (.of_eq queued) rfl
  · exact valid.waiting.gain recorded (fun entry _ fits => by simp [stage] at fits)
      (flatMap_set_gain _ routee grown) rfl ⟨rfl, taken, typed⟩
  · rw [unmoved]
    exact valid.executing.keep recorded fun entry _ fits => by simp [stage] at fits
  · exact valid.results.keep recorded fun entry _ fits => by simp [stage] at fits
  · intro other number others phase
    cases phase
    exact ⟨⟨taken, typed⟩, by simp [recorded, Stage.inFlight]⟩
  · apply reached_of_recorded valid recorded (by simp)
    intro number member different
    rw [queued] at member
    exact (List.mem_cons.mp member).resolve_left different
  · exact untaken
  · exact suits

private theorem Tracked.started {engine : Engine Job} (valid : Tracked engine) {index : Nat}
    {worker : JobWorker Job} {request : ExecuteJobRequest Job} {rest : List (WorkerMessage Job)}
    (found : engine.workers[index]? = some worker) (free : worker.running = none)
    (front : worker.mailbox = .executeJobRequest request :: rest) :
    Tracked (engine.workerReceive index worker (.executeJobRequest request) rest) := by
  have shrunk : worker.waiting.Perm
      (request :: JobWorker.waiting { mailbox := rest, running := some request }) := by
    simp [JobWorker.waiting, front]
  have left := flatMap_set_lose JobWorker.waiting found shrunk
  obtain ⟨stage, taken, typed⟩ := valid.waiting.fits request (left.mem_iff.mpr List.mem_cons_self)
  have recorded : ∀ other,
      (engine.workerReceive index worker (.executeJobRequest request) rest).stage other =
        if other = request.ticket then .executing else engine.stage other := fun _ => rfl
  have suitable : Stage.executing.Suits request.jobData := by simp [Stage.Suits, typed]
  have untaken := untaken_of_recorded valid taken recorded
  have suits := suits_of_recorded valid taken suitable recorded
  constructor
  · exact valid.queued.keep recorded fun entry _ fits => by simp [stage] at fits
  · exact valid.waiting.lose recorded left rfl
  · exact valid.executing.gain recorded (fun entry _ fits => by simp [stage] at fits)
      (flatMap_set_gain _ found (by simp [free])) rfl ⟨rfl, taken, typed⟩
  · exact valid.results.keep recorded fun entry _ fits => by simp [stage] at fits
  · intro job ticket others phase
    obtain ⟨fetched, flying⟩ := valid.marking job ticket others phase
    refine ⟨fetched, ?_⟩
    rw [recorded]
    split
    · rfl
    · exact flying
  · exact reached_of_recorded valid recorded (by simp) fun _ member _ => member
  · exact untaken
  · exact suits

private theorem Tracked.finished {engine : Engine Job} (valid : Tracked engine) {index : Nat}
    {worker : JobWorker Job} {request : ExecuteJobRequest Job} {outcome : Outcome}
    (found : engine.workers[index]? = some worker) (busy : worker.running = some request) :
    Tracked (engine.workerFinish index worker request outcome) := by
  have left : engine.executing.Perm
      (request :: (engine.workerFinish index worker request outcome).executing) :=
    flatMap_set_lose _ found (by simp [busy])
  obtain ⟨stage, taken, typed⟩ := valid.executing.fits request (left.mem_iff.mpr List.mem_cons_self)
  have recorded : ∀ other, (engine.workerFinish index worker request outcome).stage other =
      if other = request.ticket then .executed outcome else engine.stage other := fun _ => rfl
  have suitable : (Stage.executed outcome).Suits request.jobData := by simp [Stage.Suits, typed]
  have untaken := untaken_of_recorded valid taken recorded
  have suits := suits_of_recorded valid taken suitable recorded
  have unmoved : (engine.workerFinish index worker request outcome).waiting = engine.waiting :=
    flatMap_set_same _ found rfl
  have arrived : (engine.workerFinish index worker request outcome).results.Perm
      ((request, outcome) :: engine.results) := by
    have tail : (engine.workerFinish index worker request outcome).results =
        engine.results ++ [(request, outcome)] := by
      cases outcome <;> simp [Engine.workerFinish, Engine.record, Engine.results,
        CoordinatorMessage.result?]
    rw [tail]
    exact List.perm_append_singleton _ _
  constructor
  · exact valid.queued.keep recorded fun entry _ fits => by simp [stage] at fits
  · rw [unmoved]
    exact valid.waiting.keep recorded fun entry _ fits => by simp [stage] at fits
  · exact valid.executing.lose recorded left rfl
  · exact valid.results.gain recorded (fun entry _ fits => by simp [stage] at fits) arrived rfl
      ⟨rfl, taken, typed⟩
  · intro job ticket others phase
    obtain ⟨fetched, flying⟩ := valid.marking job ticket others phase
    refine ⟨fetched, ?_⟩
    rw [recorded]
    split
    · rfl
    · exact flying
  · exact reached_of_recorded valid recorded (by simp) fun _ member _ => member
  · exact untaken
  · exact suits

private theorem Tracked.fetchDelivered {engine : Engine Job} (valid : Tracked engine) {ask : Nat}
    (batch : List Job) (waiting : engine.phase = .awaitingJobs ask) :
    Tracked { engine with
      fetching := none
      taken := engine.taken ++ batch
      phase := .queueing (batch.zipIdx engine.taken.length) } := by
  have fetched {request : ExecuteJobRequest Job} (known : engine.Fetched request) :
      (engine.taken ++ batch)[request.ticket]? = some request.jobData ∧
        OddJobWithMetadata.typeMissing request.jobData = false := by
    refine ⟨?_, known.2⟩
    rw [List.getElem?_append_left (List.getElem?_eq_some_iff.mp known.1).1]
    exact known.1
  have none : engine.queued = [] := by simp only [Engine.queued, waiting]
  constructor
  · constructor
    · intro entry member
      obtain ⟨low, high, same⟩ := List.mem_zipIdx member
      refine ⟨valid.untaken _ low, ?_⟩
      simp only
      rw [List.getElem?_append_right low, same]
      exact List.getElem?_eq_getElem _
    · show (List.map Prod.snd (batch.zipIdx engine.taken.length)).Nodup
      rw [List.zipIdx_map_snd]
      exact List.nodup_range'
  · exact ⟨fun request member => ⟨(valid.waiting.fits request member).1,
      fetched (valid.waiting.fits request member).2⟩, valid.waiting.once⟩
  · exact ⟨fun request member => ⟨(valid.executing.fits request member).1,
      fetched (valid.executing.fits request member).2⟩, valid.executing.once⟩
  · exact ⟨fun result member => ⟨(valid.results.fits result member).1,
      fetched (valid.results.fits result member).2⟩, valid.results.once⟩
  · intro job ticket rest phase
    cases phase
  · intro ticket bound fresh
    simp only [List.length_append] at bound
    show ticket ∈ List.map Prod.snd (batch.zipIdx engine.taken.length)
    rw [List.zipIdx_map_snd, List.mem_range'_1]
    refine ⟨?_, bound⟩
    by_contra inside
    have member := valid.reached ticket (Nat.not_le.mp inside) fresh
    simp [none] at member
  · intro ticket bound
    simp only [List.length_append] at bound
    exact valid.untaken ticket (by omega)
  · intro ticket job found
    by_cases inside : ticket < engine.taken.length
    · rw [List.getElem?_append_left inside] at found
      exact valid.suits ticket job found
    · rw [valid.untaken ticket (Nat.not_lt.mp inside)]
      unfold Stage.Suits
      split <;> simp

omit [OddJobWithMetadata Job] in
theorem waiting_broadcast (engine : Engine Job) :
    (engine.workers.map fun worker => { worker with
      mailbox := worker.mailbox ++ [WorkerMessage.shutDownQueues] }).flatMap JobWorker.waiting =
      engine.waiting := by
  have kept (worker : JobWorker Job) : JobWorker.waiting { worker with
      mailbox := worker.mailbox ++ [WorkerMessage.shutDownQueues] } = worker.waiting := by
    simp [JobWorker.waiting]
  simp [Engine.waiting, List.flatMap_map, kept]

omit [OddJobWithMetadata Job] in
theorem executing_broadcast (engine : Engine Job) :
    (engine.workers.map fun worker => { worker with
      mailbox := worker.mailbox ++ [WorkerMessage.shutDownQueues] }).flatMap
        (fun worker => worker.running.toList) = engine.executing := by
  simp [Engine.executing, List.flatMap_map]

/-- One case per move: the request the move is about changes its place, the others keep theirs. -/
theorem Tracked.moves {engine after : Engine Job} (valid : Tracked engine)
    (move : Moves engine action after) : Tracked after := by
  cases move with
  | posted message external sent =>
    refine valid.transfer rfl rfl rfl (fun _ _ _ phase => phase) rfl rfl (.of_eq ?_)
    have other : message.isResult = false := by
      cases message <;> first | rfl | cases external
    simp [Engine.results, CoordinatorMessage.result?_eq_none.mpr other]
  | ignored message rest idle split kind =>
    exact valid.transfer rfl rfl rfl (fun _ _ _ phase => phase) rfl rfl
      (results_of_split split kind.1)
  | shutDown requester rest idle split =>
    exact valid.transfer rfl rfl rfl (fun _ _ _ phase => phase) (waiting_broadcast engine)
      (executing_broadcast engine) (results_of_split split rfl)
  | replied rest idle split more =>
    exact valid.transfer rfl rfl rfl (fun _ _ _ phase => phase) rfl rfl
      (results_of_split split rfl)
  | lastReplied rest idle split all _ _ _ _ _ =>
    refine valid.transfer rfl rfl ?_ (fun _ _ _ phase => ?_) rfl rfl (results_of_split split rfl)
    · simp only [Engine.queued, idle]
    · cases phase
  | asked message rest idle split sweep running unsaturated =>
    refine valid.transfer rfl rfl ?_ (fun _ _ _ phase => ?_) rfl rfl
      (results_of_split split (sweep_not_result sweep))
    · simp only [Engine.queued, idle]
    · cases phase
  | saturated message rest extra state calls errors idle split sweep same silent left queue =>
    refine valid.transfer rfl rfl rfl (fun _ _ _ phase => phase) rfl rfl ?_
    have none : extra.filterMap CoordinatorMessage.result? = [] := by
      apply List.filterMap_eq_nil_iff.mpr
      intro sent member
      rw [silent sent member]
      rfl
    subst queue
    simpa [Engine.results, none] using results_of_split split (sweep_not_result sweep)
  | resultHandled request outcome now hook message rest idle split result =>
    apply valid.resultHandled idle
    have kept := split.filterMap CoordinatorMessage.result?
    subst result
    cases outcome <;> exact kept
  | timedOut ask errors waiting =>
    refine valid.transfer rfl rfl ?_ (fun _ _ _ phase => ?_) rfl rfl (.refl _)
    · simp only [Engine.queued, waiting]
    · cases phase
  | loopEnded looping =>
    refine valid.transfer rfl rfl ?_ (fun _ _ _ phase => ?_) rfl rfl (.refl _)
    · simp only [Engine.queued, looping]
    · cases phase
  | missingFailed job ticket rest hook looping missing => exact valid.missingFailed looping missing
  | dispatched job ticket rest index worker looping typed routee =>
    exact valid.dispatched looping typed routee
  | inProgressTold job ticket rest marking =>
    refine valid.transfer rfl rfl ?_ (fun _ _ _ phase => ?_) rfl rfl (.refl _)
    · simp only [Engine.queued, Engine.tellInProgress, Engine.tellLayer, marking]
    · cases phase
  | acknowledged requesters ready =>
    refine valid.transfer rfl rfl ?_ (fun _ _ _ phase => ?_) rfl rfl (.refl _)
    · simp only [Engine.queued, ready]
    · cases phase
  | storeFlushed rest free front =>
    have queued : (engine.layerReceive .shutDownQueues rest).queued = engine.queued := by
      cases phase : engine.phase <;> simp only [Engine.layerReceive, Engine.queued, phase]
    refine valid.transfer rfl rfl queued (fun job ticket others later => ?_) rfl rfl (.refl _)
    cases phase : engine.phase <;> simp_all [Engine.layerReceive]
  | fetchStarted request rest free front =>
    exact valid.transfer rfl rfl rfl (fun _ _ _ phase => phase) rfl rfl (.refl _)
  | commandProcessed command rest free front =>
    exact valid.transfer rfl rfl rfl (fun _ _ _ phase => phase) rfl rfl (.refl _)
  | fetchLost request errors busy =>
    exact valid.transfer rfl rfl rfl (fun _ _ _ phase => phase) rfl rfl (.refl _)
  | fetchDelivered request batch busy waiting reply => exact valid.fetchDelivered batch waiting
  | workerDrained index worker rest found free front =>
    refine valid.transfer rfl rfl rfl (fun _ _ _ phase => phase) ?_ ?_ (.of_eq ?_)
    · exact flatMap_set_same _ found (by simp [JobWorker.waiting, front])
    · exact flatMap_set_same _ found rfl
    · simp [Engine.results, CoordinatorMessage.result?]
  | started index worker request rest found free front => exact valid.started found free front
  | finished index worker request outcome found busy => exact valid.finished found busy

theorem tracked_of_reaches {queueName : String} {numWorkers : Nat} {aggressiveSweep : Bool}
    {allowed : Engine Job → Action Job → Prop} {engine : Engine Job}
    (reached : Transition.Reaches Engine.step allowed
      (Engine.configured queueName numWorkers aggressiveSweep) engine) : Tracked engine :=
  reached.invariant (tracked_configured queueName numWorkers aggressiveSweep)
    fun _ _ _ valid _ taken => valid.moves (moves_of_step taken)

end OddJob.Akka
