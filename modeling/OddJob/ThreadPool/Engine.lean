import OddJob.Data
import Mathlib.Data.List.Forall2

/-! The thread pool engine: a filler that is pulsed by a timer, executors that drain one
queue, and the coordinator that counts for both. A reference that a constructor leaves unset
is null, and using it throws. -/

namespace OddJob.ThreadPool

/-- How a call of a job executor, of a job manager or of an extension ends. -/
inductive Outcome where
  | returned
  | threw
  deriving DecidableEq, Repr

/-- The objects that the others refer to. -/
inductive Reference where
  | theQueue
  | theCoordinator
  | theJobStateHandler
  deriving DecidableEq, Repr

structure ThreadPoolQueueFiller where
  queueName : String
  fetchSize : Nat
  queue : Option Reference := none
  coordinator : Option Reference := none
  saturationPulseCount : Int := 0
  saturationStartTime : Option Ticks := none
  queueLifeSaturationPulseCount : Int := 0
  deriving DecidableEq

/-- The constructor, which keeps neither the queue nor the coordinator. -/
def ThreadPoolQueueFiller.new (_queue : Reference) (queueName : String) (fetchSize : Nat)
    (_coordinator : Reference) : ThreadPoolQueueFiller where
  queueName
  fetchSize

structure ThreadPoolExecutor where
  jobStateHandler : Option Reference := none
  coordinator : Option Reference := none
  deriving DecidableEq

/-- The constructor, which has a parameter for the state handler. -/
def ThreadPoolExecutor.new (_jobStateHandler coordinator : Reference) : ThreadPoolExecutor where
  coordinator := some coordinator

/-- The coordinator with its queue, its filler and its executors. -/
structure ThreadPoolCoordinator (Job : Type) where
  queueFiller : ThreadPoolQueueFiller
  threadPoolExecutors : List ThreadPoolExecutor
  pendingItems : Int := 0
  jobQueue : List Job := []
  /-- an exception that nobody handles ends the process -/
  crashed : Bool := false
  /-- every job an executor took from the queue -/
  dequeued : List Job := []
  /-- the calls of `ExecuteJob`, and how they ended -/
  executions : List (Job × Outcome) := []
  /-- the calls of `MarkJobSuccess`, `MarkJobFailed` and `MarkJobInRetryAndIncrement` -/
  marks : List (Guid × Mark) := []

namespace ThreadPoolCoordinator

variable {Job : Type}

def new (queueName : String) (workerCount : Nat) : ThreadPoolCoordinator Job where
  queueFiller := .new .theQueue queueName workerCount .theCoordinator
  threadPoolExecutors := List.replicate workerCount (.new .theJobStateHandler .theCoordinator)

/-- `PulseQueue`, where `GetJobs` returns the jobs. Nothing in the engine ever cancels its
token, so the branch that shuts the queue down is never taken. -/
def pulseQueue (engine : ThreadPoolCoordinator Job) (jobs : List Job) (now : Ticks) :
    ThreadPoolCoordinator Job × Outcome :=
  let filler := engine.queueFiller
  match filler.coordinator with
  -- `_coordinator.PendingItems`
  | none => (engine, .threw)
  | some _ =>
    if engine.pendingItems ≤ filler.fetchSize * 2 then
      let fetched := { engine with
        queueFiller := { filler with saturationStartTime := none, saturationPulseCount := 0 } }
      match filler.queue, jobs with
      -- `_queue.Enqueue(oddJobWithMetadata)`
      | none, _ :: _ => (fetched, .threw)
      | none, [] => (fetched, .returned)
      | some _, _ =>
        ({ fetched with
          jobQueue := engine.jobQueue ++ jobs
          pendingItems := engine.pendingItems + jobs.length }, .returned)
    else
      -- what `OnJobQueueSaturated` throws is caught
      ({ engine with queueFiller := { filler with
          saturationStartTime := some (filler.saturationStartTime.getD now)
          saturationPulseCount := wrapInt32 (filler.saturationPulseCount + 1)
          queueLifeSaturationPulseCount :=
            wrapInt32 (filler.queueLifeSaturationPulseCount + 1) } }, .returned)

variable [OddJobWithMetadata Job]

def mark (engine : ThreadPoolCoordinator Job) (job : Job) (mark : Mark) :
    ThreadPoolCoordinator Job :=
  { engine with marks := engine.marks ++ [(OddJobWithMetadata.jobId job, mark)] }

/-- The mark that `HandleFailure` chooses. -/
def failureMark (job : Job) (now : Ticks) : Mark :=
  match OddJobWithMetadata.retryParameters job with
  | none => .markJobFailed
  | some parameters =>
    if parameters.maxRetries ≤ parameters.retryCount then .markJobFailed
    else .markJobInRetryAndIncrement now

/-- How the calls of one iteration end. What the extension throws is caught around it. -/
structure Calls where
  executeJob : Outcome := .returned
  markJobSuccess : Outcome := .returned
  /-- `MarkJobFailed` or `MarkJobInRetryAndIncrement` -/
  markFailure : Outcome := .returned
  extension : Outcome := .returned
  now : Ticks := 0

/-- `_jobStateHandler.HandleSuccess(jobWithMetadata)` -/
def handleSuccess (engine : ThreadPoolCoordinator Job) (jobStateHandler : Option Reference)
    (job : Job) (calls : Calls) : ThreadPoolCoordinator Job × Outcome :=
  match jobStateHandler with
  | none => (engine, .threw)
  | some _ => (engine.mark job .markJobSuccess, calls.markJobSuccess)

/-- `_jobStateHandler.HandleFailure(jobWithMetadata, e)` -/
def handleFailure (engine : ThreadPoolCoordinator Job) (jobStateHandler : Option Reference)
    (job : Job) (calls : Calls) : ThreadPoolCoordinator Job × Outcome :=
  match jobStateHandler with
  | none => (engine, .threw)
  | some _ => (engine.mark job (failureMark job calls.now), calls.markFailure)

/-- The `try` and the `catch` around one job. -/
def executeJob (engine : ThreadPoolCoordinator Job) (jobStateHandler : Option Reference) (job : Job)
    (calls : Calls) : ThreadPoolCoordinator Job × Outcome :=
  let executed := { engine with executions := engine.executions ++ [(job, calls.executeJob)] }
  match calls.executeJob with
  | .threw => executed.handleFailure jobStateHandler job calls
  | .returned =>
    match executed.handleSuccess jobStateHandler job calls with
    | (handled, .returned) => (handled, .returned)
    | (handled, .threw) => handled.handleFailure jobStateHandler job calls

/-- One iteration of the loop of an executor, which does nothing while the queue is empty. -/
def iterate (engine : ThreadPoolCoordinator Job) (executor : ThreadPoolExecutor) (calls : Calls) :
    ThreadPoolCoordinator Job × Outcome :=
  match engine.jobQueue with
  | [] => (engine, .returned)
  | job :: rest =>
    let taken := { engine with jobQueue := rest, dequeued := engine.dequeued ++ [job] }
    match taken.executeJob executor.jobStateHandler job calls, executor.coordinator with
    | (settled, .threw), _ => (settled, .threw)
    | (settled, .returned), none => (settled, .threw)
    | (settled, .returned), some _ =>
      ({ settled with pendingItems := settled.pendingItems - 1 }, .returned)

end ThreadPoolCoordinator

inductive Action (Job : Type) where
  /-- the timer calls `PulseQueue` -/
  | pulseQueue (jobs : List Job) (now : Ticks)
  /-- an executor makes one iteration -/
  | iterate (executor : Nat) (calls : ThreadPoolCoordinator.Calls)

def Action.isPulse {Job : Type} : Action Job → Bool
  | .pulseQueue _ _ => true
  | .iterate _ _ => false

namespace ThreadPoolCoordinator

variable {Job : Type} [OddJobWithMetadata Job]

def call (engine : ThreadPoolCoordinator Job) : Action Job → ThreadPoolCoordinator Job × Outcome
  | .pulseQueue jobs now => engine.pulseQueue jobs now
  | .iterate index calls =>
    match engine.threadPoolExecutors[index]? with
    | none => (engine, .returned)
    | some executor => engine.iterate executor calls

/-- One whole call on a thread of the pool; a process that has crashed does nothing more. -/
def step (engine : ThreadPoolCoordinator Job) (action : Action Job) : ThreadPoolCoordinator Job :=
  if engine.crashed then engine
  else
    match engine.call action with
    | (after, .returned) => after
    | (after, .threw) => { after with crashed := true }

/-- The verdict that the end of an execution calls for. -/
def Settles (job : Job) (outcome : Outcome) (mark : Mark) : Prop :=
  match outcome with
  | .returned => mark = .markJobSuccess
  | .threw => ∃ now, mark = failureMark job now

/-- Nothing went unhandled, every job that was taken was executed once and got the one mark
that its end calls for, and the counter counts what is queued. -/
structure Accounts (engine : ThreadPoolCoordinator Job) : Prop where
  handled : engine.crashed = false
  executed : engine.executions.map Prod.fst = engine.dequeued
  marked : List.Forall₂ (fun execution mark => mark.1 = OddJobWithMetadata.jobId execution.1 ∧
    Settles execution.1 execution.2 mark.2) engine.executions engine.marks
  pending : engine.pendingItems = engine.jobQueue.length

/-- The call of the manager that follows from the end of the execution returns. -/
def MarkReturns (engine : ThreadPoolCoordinator Job) : Action Job → Prop
  | .pulseQueue _ _ => True
  | .iterate index calls =>
    index < engine.threadPoolExecutors.length → engine.jobQueue ≠ [] →
      match calls.executeJob with
      | .returned => calls.markJobSuccess = .returned
      | .threw => calls.markFailure = .returned

def MarksReturn (engine : ThreadPoolCoordinator Job) : List (Action Job) → Prop
  | [] => True
  | action :: rest => engine.MarkReturns action ∧ (engine.step action).MarksReturn rest

/-- The accounts are right after every step. -/
def KeepsAccounts (engine : ThreadPoolCoordinator Job) : List (Action Job) → Prop
  | [] => True
  | action :: rest => (engine.step action).Accounts ∧ (engine.step action).KeepsAccounts rest

theorem accounts_new (queueName : String) (workerCount : Nat) :
    Accounts (new queueName workerCount : ThreadPoolCoordinator Job) :=
  ⟨rfl, rfl, .nil, rfl⟩

theorem step_iterate_of_empty {engine : ThreadPoolCoordinator Job} (empty : engine.jobQueue = [])
    (index : Nat) (calls : Calls) : engine.step (.iterate index calls) = engine := by
  unfold step
  split
  · rfl
  · simp only [call]
    cases engine.threadPoolExecutors[index]? with
    | none => rfl
    | some executor => simp only [iterate, empty]

/-- The first pulse uses the coordinator that the filler has not kept. -/
theorem crashed_of_pulse (queueName : String) (workerCount : Nat) (jobs : List Job) (now : Ticks) :
    ((new queueName workerCount).step (.pulseQueue jobs now)).crashed = true := rfl

/-- The engine keeps its accounts exactly as long as its queue is never pulsed. -/
theorem keepsAccounts_iff (queueName : String) (workerCount : Nat) (run : List (Action Job)) :
    (new queueName workerCount).KeepsAccounts run ↔ ∀ action ∈ run, action.isPulse = false := by
  induction run with
  | nil => simp [KeepsAccounts]
  | cons action rest ih =>
    rw [List.forall_mem_cons]
    cases action with
    | pulseQueue jobs now =>
      constructor
      · intro ⟨accounts, _⟩
        have handled := accounts.handled
        rw [crashed_of_pulse] at handled
        cases handled
      · intro ⟨calm, _⟩
        cases calm
    | iterate index calls =>
      have idle : (new queueName workerCount : ThreadPoolCoordinator Job).step
          (.iterate index calls) = new queueName workerCount := step_iterate_of_empty rfl index calls
      rw [KeepsAccounts, idle, ih]
      constructor
      · exact fun ⟨_, calm⟩ => ⟨rfl, calm⟩
      · exact fun ⟨_, calm⟩ => ⟨accounts_new queueName workerCount, calm⟩

/-- One pulse of a new engine ends the process. -/
theorem pulse_crashes :
    ¬ (new "default" 1 : ThreadPoolCoordinator (SqlDbOddJob Unit Unit)).KeepsAccounts
      [.pulseQueue [] 0] := by
  rintro ⟨accounts, _⟩
  cases accounts.handled

/-- The filler has its queue and its coordinator, every executor its coordinator and its
handler. -/
structure Wired (engine : ThreadPoolCoordinator Job) : Prop where
  filler : engine.queueFiller.coordinator.isSome = true
  queue : engine.queueFiller.queue.isSome = true
  handlers : ∀ executor ∈ engine.threadPoolExecutors, executor.jobStateHandler.isSome = true
  coordinators : ∀ executor ∈ engine.threadPoolExecutors, executor.coordinator.isSome = true

variable {engine : ThreadPoolCoordinator Job}

theorem Wired.pulse (wired : Wired engine) (accounts : Accounts engine) (jobs : List Job)
    (now : Ticks) : Wired (engine.step (.pulseQueue jobs now)) ∧
      Accounts (engine.step (.pulseQueue jobs now)) := by
  obtain ⟨coordinator, same⟩ := Option.isSome_iff_exists.mp wired.filler
  obtain ⟨queue, kept⟩ := Option.isSome_iff_exists.mp wired.queue
  simp only [step, accounts.handled, Bool.false_eq_true, ↓reduceIte, call, pulseQueue, same, kept]
  by_cases unsaturated : engine.pendingItems ≤ engine.queueFiller.fetchSize * 2
  · simp only [unsaturated, ↓reduceIte]
    refine ⟨⟨rfl, rfl, wired.handlers, wired.coordinators⟩,
      ⟨rfl, accounts.executed, accounts.marked, ?_⟩⟩
    simp [accounts.pending]
  · simp only [unsaturated, ↓reduceIte]
    exact ⟨⟨rfl, rfl, wired.handlers, wired.coordinators⟩,
      ⟨rfl, accounts.executed, accounts.marked, accounts.pending⟩⟩

/-- What an iteration makes of the first job, if the first mark returns and if it throws. -/
theorem Wired.iterate_eq (wired : Wired engine) {executor : ThreadPoolExecutor}
    (member : executor ∈ engine.threadPoolExecutors) {job : Job} {rest : List Job}
    (queued : engine.jobQueue = job :: rest) (calls : Calls) :
    let taken := { engine with
      jobQueue := rest
      dequeued := engine.dequeued ++ [job]
      executions := engine.executions ++ [(job, calls.executeJob)] }
    let settled (marked : ThreadPoolCoordinator Job) : ThreadPoolCoordinator Job × Outcome :=
      match calls.markFailure with
      | .threw => (marked, .threw)
      | .returned => ({ marked with pendingItems := engine.pendingItems - 1 }, .returned)
    engine.iterate executor calls =
      match calls.executeJob, calls.markJobSuccess with
      | .returned, .returned =>
        ({ taken.mark job .markJobSuccess with pendingItems := engine.pendingItems - 1 }, .returned)
      | .returned, .threw => settled ((taken.mark job .markJobSuccess).mark job
          (failureMark job calls.now))
      | .threw, _ => settled (taken.mark job (failureMark job calls.now)) := by
  obtain ⟨handler, handles⟩ := Option.isSome_iff_exists.mp (wired.handlers executor member)
  obtain ⟨coordinator, counts⟩ := Option.isSome_iff_exists.mp (wired.coordinators executor member)
  simp only [iterate, queued, executeJob, handles, counts, handleSuccess, handleFailure]
  cases calls.executeJob <;> cases calls.markJobSuccess <;> cases calls.markFailure <;> rfl

/-- An iteration keeps the accounts of a wired engine where its mark returns, -/
theorem Wired.iterate (wired : Wired engine) (accounts : Accounts engine) (index : Nat)
    (calls : Calls) :
    (Accounts (engine.step (.iterate index calls)) ↔ engine.MarkReturns (.iterate index calls)) ∧
      (engine.MarkReturns (.iterate index calls) → Wired (engine.step (.iterate index calls))) := by
  cases queued : engine.jobQueue with
  | nil =>
    rw [step_iterate_of_empty queued]
    have returns : engine.MarkReturns (.iterate index calls) := fun _ jobs => absurd queued jobs
    exact ⟨⟨fun _ => returns, fun _ => accounts⟩, fun _ => wired⟩
  | cons job rest =>
    cases found : engine.threadPoolExecutors[index]? with
    | none =>
      have outside : ¬ index < engine.threadPoolExecutors.length := by
        simpa using List.getElem?_eq_none_iff.mp found
      have still : engine.step (.iterate index calls) = engine := by
        simp [step, call, found]
      rw [still]
      have returns : engine.MarkReturns (.iterate index calls) := fun inside => absurd inside outside
      exact ⟨⟨fun _ => returns, fun _ => accounts⟩, fun _ => wired⟩
    | some executor =>
      have inside := (List.getElem?_eq_some_iff.mp found).1
      have ran := wired.iterate_eq (List.mem_of_getElem? found) queued calls
      have stepped : engine.step (.iterate index calls) =
          match engine.iterate executor calls with
          | (after, .returned) => after
          | (after, .threw) => { after with crashed := true } := by
        simp only [step, accounts.handled, Bool.false_eq_true, ↓reduceIte, call, found]
      have counted := accounts.pending
      rw [queued, List.length_cons] at counted
      have more (mark : Mark) (settles : Settles job calls.executeJob mark) :
          List.Forall₂ (fun execution mark => mark.1 = OddJobWithMetadata.jobId execution.1 ∧
            Settles execution.1 execution.2 mark.2)
            (engine.executions ++ [(job, calls.executeJob)])
            (engine.marks ++ [(OddJobWithMetadata.jobId job, mark)]) :=
        List.rel_append accounts.marked (.cons ⟨rfl, settles⟩ .nil)
      have executed : (engine.executions ++ [(job, calls.executeJob)]).map Prod.fst =
          engine.dequeued ++ [job] := by
        rw [List.map_append, accounts.executed]
        rfl
      have pending : engine.pendingItems - 1 = rest.length := by
        rw [counted]
        simp
      have returns : engine.MarkReturns (.iterate index calls) ↔
          match calls.executeJob with
          | .returned => calls.markJobSuccess = .returned
          | .threw => calls.markFailure = .returned := by
        simp only [MarkReturns, inside, queued, ne_eq, reduceCtorEq, not_false_eq_true,
          forall_const]
      rw [stepped, ran, returns]
      cases ended : calls.executeJob with
      | returned =>
        rw [ended] at more executed
        cases success : calls.markJobSuccess with
        | returned =>
          refine ⟨⟨fun _ => rfl, fun _ => ⟨accounts.handled, executed, more _ rfl, pending⟩⟩,
            fun _ => ⟨wired.filler, wired.queue, wired.handlers, wired.coordinators⟩⟩
        | threw =>
          refine ⟨⟨fun after => ?_, fun returned => by cases returned⟩,
            fun returned => by cases returned⟩
          -- the job has got two marks, if it got to its end at all
          have lengths := after.marked.length_eq
          have before := accounts.marked.length_eq
          cases failure : calls.markFailure <;>
            simp [failure, mark, before] at lengths
      | threw =>
        rw [ended] at more executed
        cases failure : calls.markFailure with
        | returned =>
          refine ⟨⟨fun _ => rfl, fun _ => ⟨accounts.handled, executed, more _ ⟨_, rfl⟩, pending⟩⟩,
            fun _ => ⟨wired.filler, wired.queue, wired.handlers, wired.coordinators⟩⟩
        | threw =>
          refine ⟨⟨fun after => ?_, fun returned => by cases returned⟩,
            fun returned => by cases returned⟩
          cases after.handled

/-- and so in every run: the accounts of a wired engine are kept exactly as long as every
mark returns. -/
theorem Wired.keepsAccounts_iff_marked (wired : Wired engine) (accounts : Accounts engine)
    (run : List (Action Job)) : engine.KeepsAccounts run ↔ engine.MarksReturn run := by
  induction run generalizing engine with
  | nil => exact Iff.rfl
  | cons action rest ih =>
    cases action with
    | pulseQueue jobs now =>
      obtain ⟨wiredAfter, after⟩ := wired.pulse accounts jobs now
      rw [KeepsAccounts, MarksReturn, ih wiredAfter after]
      exact and_congr_left fun _ => ⟨fun _ => trivial, fun _ => after⟩
    | iterate index calls =>
      obtain ⟨kept, still⟩ := wired.iterate accounts index calls
      rw [KeepsAccounts, MarksReturn, kept]
      exact and_congr_right fun returns => ih (still returns) (kept.mpr returns)

end ThreadPoolCoordinator

end OddJob.ThreadPool
