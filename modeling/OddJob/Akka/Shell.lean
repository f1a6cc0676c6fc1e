import OddJob.Akka.Engine
import OddJob.Lib.Dictionary

/-! `BaseJobExecutorShell`: queues are started and shut down one after another, and
every call into the actor system may throw. -/

namespace OddJob.Akka

variable {Key : Type}

/-- An `IActorRef`, numbered by the coordinators the shell has created. -/
abbrev ActorRef := Nat

/-- `DefaultJobQueueManagerPriority.Expression`; `collate` is how the database orders dates. -/
def defaultJobQueueManagerPriority (collate : Option Ticks → Key) (data : JobLockData) : Key :=
  collate data.mostRecentDate

structure SetJobQueueConfiguration (Key : Type) where
  queueName : String
  numWorkers : Nat
  pulseDelayInSeconds : Int
  firstPulseDelayInSeconds : Int := 5
  priorityExpression : JobLockData → Key
  aggressiveSweep : Bool := false

/-- The coordinator's answer to `SetJobQueueConfiguration`: it keeps the name of the queue,
the number of workers and the kind of sweep. -/
def Engine.setJobQueueConfiguration (config : SetJobQueueConfiguration Key) : Engine Job :=
  Engine.configured config.queueName config.numWorkers config.aggressiveSweep

/-- The arguments of `StartJobQueue`. -/
structure StartArguments (Key : Type) where
  queueName : String
  numWorkers : Nat
  pulseDelayInSeconds : Int
  firstPulseDelayInSeconds : Int := 5
  priorityExpresssion : Option (JobLockData → Key) := none
  aggressiveSweep : Bool := false

def StartArguments.priExpr (collate : Option Ticks → Key) (arguments : StartArguments Key) :
    JobLockData → Key :=
  arguments.priorityExpresssion.getD (defaultJobQueueManagerPriority collate)

def StartArguments.configuration (collate : Option Ticks → Key) (arguments : StartArguments Key) :
    SetJobQueueConfiguration Key where
  queueName := arguments.queueName
  numWorkers := arguments.numWorkers
  pulseDelayInSeconds := arguments.pulseDelayInSeconds
  firstPulseDelayInSeconds := arguments.firstPulseDelayInSeconds
  priorityExpression := arguments.priExpr collate
  aggressiveSweep := arguments.aggressiveSweep

inductive CoordinatorRequest (Key : Type) where
  | setJobQueueConfiguration (config : SetJobQueueConfiguration Key)
  | shutDownQueues
  | poisonPill

structure Cancelable where
  coordinator : ActorRef
  isCancellationRequested : Bool := false

structure JobExecutorShell (Key : Type) where
  coordinatorPool : Dictionary String ActorRef := ∅
  cancelPulsePool : Dictionary String Cancelable := ∅
  /-- how many coordinators were created -/
  actors : Nat := 0
  /-- what the shell has told its coordinators -/
  told : List (ActorRef × CoordinatorRequest Key) := []

/-- How `Ask(new SetJobQueueConfiguration(..))` ends. -/
inductive Answer where
  | threw
  | configured
  | unexpected
  deriving DecidableEq, Repr

/-- How the calls of one `StartJobQueue` into the actor system end. -/
structure StartCalls where
  actorOf : Outcome := .returned
  ask : Answer := .configured
  scheduleTellRepeatedly : Outcome := .returned
  deriving DecidableEq

/-- How the calls of one `ShutDownQueue` end; the `Ask` throws when it times out. -/
structure ShutDownCalls where
  cancel : Outcome := .returned
  ask : Outcome := .returned
  deriving DecidableEq

namespace JobExecutorShell

def tell (shell : JobExecutorShell Key) (coordinator : ActorRef)
    (request : CoordinatorRequest Key) : JobExecutorShell Key :=
  { shell with told := shell.told ++ [(coordinator, request)] }

/-- `StartJobQueue` from the reply of the coordinator on. -/
def register (shell : JobExecutorShell Key) (queueName : String) (jobCoordinator : ActorRef)
    (scheduleTellRepeatedly : Outcome) : JobExecutorShell Key × Outcome :=
  match shell.coordinatorPool.add queueName jobCoordinator with
  | none => (shell, .threw)
  | some coordinatorPool =>
    let added := { shell with coordinatorPool }
    match scheduleTellRepeatedly with
    | .threw => (added, .threw)
    | .returned =>
      match shell.cancelPulsePool.add queueName { coordinator := jobCoordinator } with
      | none => (added, .threw)
      | some cancelPulsePool => ({ added with cancelPulsePool }, .returned)

def startJobQueue (collate : Option Ticks → Key) (shell : JobExecutorShell Key)
    (arguments : StartArguments Key) (calls : StartCalls) : JobExecutorShell Key × Outcome :=
  if shell.coordinatorPool.containsKey arguments.queueName then (shell, .returned)
  else
    match calls.actorOf with
    | .threw => (shell, .threw)
    | .returned =>
      let asked := { shell with actors := shell.actors + 1 }.tell shell.actors
        (.setJobQueueConfiguration (arguments.configuration collate))
      match calls.ask with
      | .configured => asked.register arguments.queueName shell.actors calls.scheduleTellRepeatedly
      | .threw | .unexpected => (asked, .threw)

/-- The `try` block of `ShutDownQueue`. -/
def stop (shell : JobExecutorShell Key) (queueName : String) (calls : ShutDownCalls) :
    JobExecutorShell Key × Outcome :=
  -- a cancelled token is not looked at again: the `finally` drops it
  let running := shell.cancelPulsePool.lookup queueName |>.any (!·.isCancellationRequested)
  if running && calls.cancel = .threw then (shell, .threw)
  else
    match shell.coordinatorPool.lookup queueName with
    -- `coordinatorPool[queueName]`
    | none => (shell, .threw)
    | some coordinator =>
      let asked := shell.tell coordinator .shutDownQueues
      match calls.ask with
      | .threw => (asked, .threw)
      | .returned => (asked.tell coordinator .poisonPill, .returned)

def shutDownQueue (shell : JobExecutorShell Key) (queueName : String) (calls : ShutDownCalls) :
    JobExecutorShell Key × Outcome :=
  let (stopped, outcome) := shell.stop queueName calls
  ({ stopped with
    cancelPulsePool := stopped.cancelPulsePool.remove queueName
    coordinatorPool := stopped.coordinatorPool.remove queueName }, outcome)

/-- The `foreach` of `Dispose`, which an exception ends. -/
def shutDownQueues (calls : String → ShutDownCalls) (shell : JobExecutorShell Key) :
    List String → JobExecutorShell Key × Outcome
  | [] => (shell, .returned)
  | key :: rest =>
    match shell.shutDownQueue key (calls key) with
    | (stopped, .threw) => (stopped, .threw)
    | (stopped, .returned) => shutDownQueues calls stopped rest

/-- `Dispose`, up to the end of the actor system. -/
def dispose (shell : JobExecutorShell Key) (calls : String → ShutDownCalls) :
    JobExecutorShell Key × Outcome :=
  shell.shutDownQueues calls shell.cancelPulsePool.keys

end JobExecutorShell

inductive ShellCall (Key : Type) where
  | startJobQueue (arguments : StartArguments Key) (calls : StartCalls)
  | shutDownQueue (queueName : String) (calls : ShutDownCalls)

namespace JobExecutorShell

section Runs

variable (collate : Option Ticks → Key)

def call (shell : JobExecutorShell Key) : ShellCall Key → JobExecutorShell Key × Outcome
  | .startJobQueue arguments calls => shell.startJobQueue collate arguments calls
  | .shutDownQueue queueName calls => shell.shutDownQueue queueName calls

def run (shell : JobExecutorShell Key) (calls : List (ShellCall Key)) : JobExecutorShell Key :=
  calls.foldl (fun shell call => (shell.call collate call).1) shell

/-- The two dictionaries have the same keys. -/
def Agrees (shell : JobExecutorShell Key) : Prop :=
  ∀ queueName, queueName ∈ shell.coordinatorPool.keys ↔ queueName ∈ shell.cancelPulsePool.keys

/-- A `StartJobQueue` that throws leaves both dictionaries as they were. -/
def StartUndone (shell : JobExecutorShell Key) : ShellCall Key → Prop
  | .startJobQueue arguments calls =>
    (shell.startJobQueue collate arguments calls).2 = .threw →
      (shell.startJobQueue collate arguments calls).1.coordinatorPool = shell.coordinatorPool ∧
      (shell.startJobQueue collate arguments calls).1.cancelPulsePool = shell.cancelPulsePool
  | .shutDownQueue _ _ => True

/-- After every call the dictionaries agree, and no failed start has touched them. -/
def KeepsPools : JobExecutorShell Key → List (ShellCall Key) → Prop
  | _, [] => True
  | shell, call :: rest =>
    (shell.call collate call).1.Agrees ∧ shell.StartUndone collate call ∧
      KeepsPools (shell.call collate call).1 rest

/-- A start that gets as far as scheduling its sweeps has their delays accepted. -/
def Schedules (shell : JobExecutorShell Key) : ShellCall Key → Prop
  | .startJobQueue arguments calls =>
    arguments.queueName ∉ shell.coordinatorPool.keys → calls.actorOf = .returned →
      calls.ask = .configured → calls.scheduleTellRepeatedly = .returned
  | .shutDownQueue _ _ => True

def AlwaysSchedules : JobExecutorShell Key → List (ShellCall Key) → Prop
  | _, [] => True
  | shell, call :: rest =>
    shell.Schedules call ∧ AlwaysSchedules (shell.call collate call).1 rest

end Runs

/-- `Dispose` sends `ShutDownQueues` to every coordinator. -/
def TellsAll (shell : JobExecutorShell Key) (calls : String → ShutDownCalls) : Prop :=
  ∀ entry ∈ shell.coordinatorPool.entries,
    (entry.2, .shutDownQueues) ∈
      (({ shell with told := [] } : JobExecutorShell Key).dispose calls).1.told

/-- No shutdown but the last stops the loop of `Dispose`. -/
structure Unbroken (keys : List String) (calls : String → ShutDownCalls) : Prop where
  cancelled : ∀ key ∈ keys, (calls key).cancel = .returned
  answered : ∀ key ∈ keys.dropLast, (calls key).ask = .returned

theorem unbroken_cons_iff {key : String} {rest : List String} {calls : String → ShutDownCalls}
    (cancelled : (calls key).cancel = .returned) (answered : (calls key).ask = .returned) :
    Unbroken (key :: rest) calls ↔ Unbroken rest calls := by
  have others (unbroken : Unbroken rest calls) :
      ∀ other ∈ (key :: rest).dropLast, (calls other).ask = .returned := by
    intro other member
    cases rest with
    | nil => cases member
    | cons next more =>
      rcases List.mem_cons.mp member with rfl | present
      · exact answered
      · exact unbroken.answered other present
  constructor
  · intro unbroken
    refine ⟨fun other member => unbroken.cancelled other (List.mem_cons_of_mem _ member), ?_⟩
    intro other member
    apply unbroken.answered other
    cases rest with
    | nil => cases member
    | cons next more => exact List.mem_cons_of_mem _ member
  · intro unbroken
    refine ⟨fun other member => ?_, others unbroken⟩
    rcases List.mem_cons.mp member with rfl | more
    · exact cancelled
    · exact unbroken.cancelled other more

/-- Both dictionaries hold the same queues, each with a coordinator and a token of its own. -/
structure Sound (shell : JobExecutorShell Key) : Prop where
  agrees : shell.Agrees
  pulsing : ∀ entry ∈ shell.cancelPulsePool.entries, entry.2.isCancellationRequested = false
  refs : (shell.coordinatorPool.entries.map Prod.snd).Nodup
  created : ∀ entry ∈ shell.coordinatorPool.entries, entry.2 < shell.actors

theorem sound_empty : Sound ({} : JobExecutorShell Key) where
  agrees _ := Iff.rfl
  pulsing _ member := by cases member
  refs := List.nodup_nil
  created _ member := by cases member

variable {collate : Option Ticks → Key} {shell : JobExecutorShell Key}
  {arguments : StartArguments Key} {calls : StartCalls}

/-- The ways a `StartJobQueue` can go where the dictionaries agree. -/
inductive Starts (shell : JobExecutorShell Key) (arguments : StartArguments Key)
    (calls : StartCalls) : JobExecutorShell Key × Outcome → Prop where
  | skipped (present : arguments.queueName ∈ shell.coordinatorPool.keys) :
      Starts shell arguments calls (shell, .returned)
  | refused (after : JobExecutorShell Key)
      (failed : calls.actorOf = .threw ∨ calls.ask ≠ .configured)
      (coordinators : after.coordinatorPool = shell.coordinatorPool)
      (pulses : after.cancelPulsePool = shell.cancelPulsePool)
      (actors : shell.actors ≤ after.actors) : Starts shell arguments calls (after, .threw)
  | unscheduled (after : JobExecutorShell Key)
      (absent : arguments.queueName ∉ shell.coordinatorPool.keys)
      (created : calls.actorOf = .returned) (configured : calls.ask = .configured)
      (rejected : calls.scheduleTellRepeatedly = .threw)
      (coordinators : after.coordinatorPool.entries =
        shell.coordinatorPool.entries ++ [(arguments.queueName, shell.actors)])
      (pulses : after.cancelPulsePool = shell.cancelPulsePool) :
      Starts shell arguments calls (after, .threw)
  | started (after : JobExecutorShell Key)
      (absent : arguments.queueName ∉ shell.coordinatorPool.keys)
      (scheduled : calls.scheduleTellRepeatedly = .returned)
      (coordinators : after.coordinatorPool.entries =
        shell.coordinatorPool.entries ++ [(arguments.queueName, shell.actors)])
      (pulses : after.cancelPulsePool.entries = shell.cancelPulsePool.entries ++
        [(arguments.queueName, { coordinator := shell.actors })])
      (actors : after.actors = shell.actors + 1) : Starts shell arguments calls (after, .returned)

private theorem starts_of_register {asked : JobExecutorShell Key}
    (absent : arguments.queueName ∉ shell.coordinatorPool.keys) (agrees : shell.Agrees)
    (created : calls.actorOf = .returned) (configured : calls.ask = .configured)
    (coordinators : asked.coordinatorPool = shell.coordinatorPool)
    (pulses : asked.cancelPulsePool = shell.cancelPulsePool)
    (actors : asked.actors = shell.actors + 1) :
    Starts shell arguments calls
      (asked.register arguments.queueName shell.actors calls.scheduleTellRepeatedly) := by
  have unpulsed : arguments.queueName ∉ shell.cancelPulsePool.keys :=
    fun member => absent ((agrees _).mpr member)
  cases added : asked.coordinatorPool.add arguments.queueName shell.actors with
  | none => exact absurd (Dictionary.add_eq_none_iff.mp added) (coordinators ▸ absent)
  | some coordinatorPool =>
    have entries := (Dictionary.add_eq_some_iff.mp added).2
    rw [coordinators] at entries
    cases scheduled : calls.scheduleTellRepeatedly with
    | threw =>
      simp only [register, added]
      exact .unscheduled _ absent created configured scheduled entries pulses
    | returned =>
      cases pulsed : asked.cancelPulsePool.add arguments.queueName { coordinator := shell.actors } with
      | none => exact absurd (Dictionary.add_eq_none_iff.mp pulsed) (pulses ▸ unpulsed)
      | some cancelPulsePool =>
        have tokens := (Dictionary.add_eq_some_iff.mp pulsed).2
        rw [pulses] at tokens
        simp only [register, added, pulsed]
        exact .started _ absent scheduled entries tokens actors

theorem starts_of_startJobQueue (agrees : shell.Agrees) :
    Starts shell arguments calls (shell.startJobQueue collate arguments calls) := by
  unfold startJobQueue
  split
  · exact .skipped (Dictionary.containsKey_iff.mp ‹_›)
  · rename_i missing
    have absent := mt Dictionary.containsKey_iff.mpr missing
    cases created : calls.actorOf with
    | threw => exact .refused shell (.inl created) rfl rfl (Nat.le_refl _)
    | returned =>
      cases configured : calls.ask with
      | configured => exact starts_of_register absent agrees created configured rfl rfl rfl
      | threw => exact .refused _ (.inr (by simp [configured])) rfl rfl (Nat.le_succ _)
      | unexpected => exact .refused _ (.inr (by simp [configured])) rfl rfl (Nat.le_succ _)

private theorem keys_append {Value : Type} {before after : Dictionary String Value}
    {key : String} {value : Value} (entries : after.entries = before.entries ++ [(key, value)]) :
    after.keys = before.keys ++ [key] := by
  rw [Dictionary.keys, entries, List.map_append]
  rfl

theorem Sound.startJobQueue (valid : Sound shell) (collate : Option Ticks → Key)
    (schedules : shell.Schedules (.startJobQueue arguments calls)) :
    Sound (shell.startJobQueue collate arguments calls).1 ∧
      shell.StartUndone collate (.startJobQueue arguments calls) := by
  have starts : Starts shell arguments calls (shell.startJobQueue collate arguments calls) :=
    starts_of_startJobQueue valid.agrees
  simp only [StartUndone]
  generalize shell.startJobQueue collate arguments calls = result at starts
  cases starts with
  | skipped present => exact ⟨valid, fun threw => by cases threw⟩
  | refused after failed coordinators pulses actors =>
    refine ⟨⟨?_, ?_, ?_, ?_⟩, fun _ => ⟨coordinators, pulses⟩⟩
    · simp only [Agrees, coordinators, pulses]
      exact valid.agrees
    · rw [pulses]
      exact valid.pulsing
    · rw [coordinators]
      exact valid.refs
    · rw [coordinators]
      exact fun entry member => Nat.lt_of_lt_of_le (valid.created entry member) actors
  | unscheduled after absent created configured rejected coordinators pulses =>
    have accepted := schedules absent created configured
    rw [rejected] at accepted
    cases accepted
  | started after absent scheduled coordinators pulses actors =>
    refine ⟨⟨?_, ?_, ?_, ?_⟩, fun threw => by cases threw⟩
    · intro queueName
      rw [keys_append coordinators, keys_append pulses]
      simp only [List.mem_append, valid.agrees queueName]
    · rw [pulses]
      intro entry member
      rcases List.mem_append.mp member with older | newer
      · exact valid.pulsing entry older
      · rw [List.mem_singleton.mp newer]
    · rw [coordinators, List.map_append]
      refine List.nodup_append.mpr ⟨valid.refs, List.nodup_singleton _, ?_⟩
      intro ref member other last same
      obtain ⟨entry, present, rfl⟩ := List.mem_map.mp member
      obtain rfl := List.mem_singleton.mp last
      exact absurd same (Nat.ne_of_lt (valid.created entry present))
    · rw [coordinators, actors]
      intro entry member
      rcases List.mem_append.mp member with older | newer
      · exact Nat.lt_succ_of_lt (valid.created entry older)
      · rw [List.mem_singleton.mp newer]
        exact Nat.lt_succ_self _

/-- A start whose delays are rejected leaves a coordinator without a token. -/
theorem Sound.schedules_of_agrees (valid : Sound shell)
    (agrees : (shell.startJobQueue collate arguments calls).1.Agrees) :
    shell.Schedules (.startJobQueue arguments calls) := by
  intro absent created configured
  have starts : Starts shell arguments calls (shell.startJobQueue collate arguments calls) :=
    starts_of_startJobQueue valid.agrees
  generalize shell.startJobQueue collate arguments calls = result at starts agrees
  cases starts with
  | skipped present => exact absurd present absent
  | refused after failed =>
    rcases failed with threw | other
    · rw [created] at threw
      cases threw
    · exact absurd configured other
  | unscheduled after _ _ _ rejected coordinators pulses =>
    have unpulsed := (agrees arguments.queueName).mp (by rw [keys_append coordinators]; simp)
    rw [pulses] at unpulsed
    exact absurd ((valid.agrees _).mpr unpulsed) absent
  | started after _ scheduled => exact scheduled

private theorem stop_pools (shell : JobExecutorShell Key) (queueName : String) (calls : ShutDownCalls) :
    (shell.stop queueName calls).1.coordinatorPool = shell.coordinatorPool ∧
      (shell.stop queueName calls).1.cancelPulsePool = shell.cancelPulsePool ∧
      (shell.stop queueName calls).1.actors = shell.actors := by
  simp only [stop]
  split
  · exact ⟨rfl, rfl, rfl⟩
  · split
    · exact ⟨rfl, rfl, rfl⟩
    · split <;> exact ⟨rfl, rfl, rfl⟩

/-- A shutdown takes the queue out of both dictionaries, however it ends. -/
theorem Sound.shutDownQueue (valid : Sound shell) (queueName : String) (calls : ShutDownCalls) :
    Sound (shell.shutDownQueue queueName calls).1 := by
  obtain ⟨coordinators, pulses, actors⟩ := shell.stop_pools queueName calls
  constructor
  · intro other
    simp only [JobExecutorShell.shutDownQueue, coordinators, pulses, Dictionary.keys_remove,
      List.mem_filter, valid.agrees other]
  · intro entry member
    simp only [JobExecutorShell.shutDownQueue, pulses, Dictionary.mem_entries_remove] at member
    exact valid.pulsing entry member.1
  · simp only [JobExecutorShell.shutDownQueue, coordinators, Dictionary.remove]
    exact valid.refs.sublist (List.filter_sublist.map _)
  · intro entry member
    simp only [JobExecutorShell.shutDownQueue, coordinators, actors,
      Dictionary.mem_entries_remove] at member ⊢
    exact valid.created entry member.1

/-- What the loop of `Dispose` tells the coordinators of the given queues. -/
def farewells (coordinator : String → ActorRef) (calls : String → ShutDownCalls) :
    List String → List (ActorRef × CoordinatorRequest Key)
  | [] => []
  | key :: rest =>
    match (calls key).cancel, (calls key).ask with
    | .threw, _ => []
    | .returned, .threw => [(coordinator key, .shutDownQueues)]
    | .returned, .returned => (coordinator key, .shutDownQueues) ::
        (coordinator key, .poisonPill) :: farewells coordinator calls rest

/-- The coordinator of a queue in the pool. -/
def coordinatorOf (shell : JobExecutorShell Key) (key : String) : ActorRef :=
  (shell.coordinatorPool.lookup key).getD 0

private theorem stop_of_running (valid : Sound shell) {key : String}
    (pooled : key ∈ shell.cancelPulsePool.keys) (calls : ShutDownCalls) :
    shell.stop key calls =
      match calls.cancel, calls.ask with
      | .threw, _ => (shell, .threw)
      | .returned, .threw => (shell.tell (shell.coordinatorOf key) .shutDownQueues, .threw)
      | .returned, .returned => ((shell.tell (shell.coordinatorOf key) .shutDownQueues).tell
          (shell.coordinatorOf key) .poisonPill, .returned) := by
  obtain ⟨⟨_, token⟩, member, rfl⟩ := List.mem_map.mp pooled
  have found := Dictionary.lookup_eq_some_iff.mpr member
  have pulsing : token.isCancellationRequested = false := valid.pulsing _ member
  obtain ⟨⟨_, ref⟩, listed, same⟩ := List.mem_map.mp ((valid.agrees _).mpr pooled)
  simp only at same
  subst same
  have registered := Dictionary.lookup_eq_some_iff.mpr listed
  simp only [stop, found, registered, coordinatorOf, Option.any_some, pulsing, Option.getD_some,
    Bool.not_false, Bool.true_and]
  cases calls.cancel <;> cases calls.ask <;> rfl

private theorem farewells_congr {left right : String → ActorRef} (calls : String → ShutDownCalls)
    {keys : List String} (same : ∀ key ∈ keys, left key = right key) :
    (farewells left calls keys : List (ActorRef × CoordinatorRequest Key)) =
      farewells right calls keys := by
  induction keys with
  | nil => rfl
  | cons key rest ih =>
    have head := same key List.mem_cons_self
    have tail := ih fun other member => same other (List.mem_cons_of_mem _ member)
    simp only [farewells, head, tail]

private theorem told_shutDownQueues (calls : String → ShutDownCalls) {keys : List String}
    (valid : Sound shell) (distinct : keys.Nodup)
    (pooled : ∀ key ∈ keys, key ∈ shell.cancelPulsePool.keys) :
    (shell.shutDownQueues calls keys).1.told =
      shell.told ++ farewells shell.coordinatorOf calls keys := by
  induction keys generalizing shell with
  | nil => simp [shutDownQueues, farewells]
  | cons key rest ih =>
    obtain ⟨fresh, distinct⟩ := List.nodup_cons.mp distinct
    have stopped := stop_of_running valid (pooled key List.mem_cons_self) (calls key)
    have sound := valid.shutDownQueue key (calls key)
    obtain ⟨coordinators, pulses, _⟩ := shell.stop_pools key (calls key)
    have others (other : String) (member : other ∈ rest) :
        (shell.shutDownQueue key (calls key)).1.coordinatorOf other = shell.coordinatorOf other := by
      have different : other ≠ key := fun same => fresh (same ▸ member)
      have found (ref : ActorRef) :
          (shell.shutDownQueue key (calls key)).1.coordinatorPool.lookup other = some ref ↔
            shell.coordinatorPool.lookup other = some ref := by
        simp only [JobExecutorShell.shutDownQueue, coordinators, Dictionary.lookup_eq_some_iff,
          Dictionary.mem_entries_remove, ne_eq, different, not_false_eq_true, and_true]
      rw [coordinatorOf, coordinatorOf, Option.ext found]
    have still (other : String) (member : other ∈ rest) :
        other ∈ (shell.shutDownQueue key (calls key)).1.cancelPulsePool.keys := by
      simp only [JobExecutorShell.shutDownQueue, pulses, Dictionary.keys_remove, List.mem_filter]
      exact ⟨pooled other (List.mem_cons_of_mem _ member),
        decide_eq_true fun same => fresh (same ▸ member)⟩
    have later := ih sound distinct still
    have same := @farewells_congr Key _ _ calls _ others
    rw [same] at later
    simp only [JobExecutorShell.shutDownQueue, stopped] at later
    simp only [shutDownQueues, farewells, JobExecutorShell.shutDownQueue, stopped]
    cases cancelled : (calls key).cancel <;> cases answered : (calls key).ask <;>
      simp_all [tell]

private theorem farewells_tell_all_iff {coordinator : String → ActorRef}
    {calls : String → ShutDownCalls} {keys : List String} (distinct : keys.Nodup)
    (apart : ∀ left ∈ keys, ∀ right ∈ keys, coordinator left = coordinator right → left = right) :
    (∀ key ∈ keys, (coordinator key, (.shutDownQueues : CoordinatorRequest Key)) ∈
      farewells coordinator calls keys) ↔ Unbroken keys calls := by
  induction keys with
  | nil => exact ⟨fun _ => ⟨by simp, by simp⟩, fun _ _ member => by cases member⟩
  | cons key rest ih =>
    obtain ⟨fresh, distinct⟩ := List.nodup_cons.mp distinct
    have later := ih distinct fun left member right present =>
      apart left (List.mem_cons_of_mem _ member) right (List.mem_cons_of_mem _ present)
    have foreign (other : String) (member : other ∈ rest) : coordinator other ≠ coordinator key :=
      fun same => fresh (apart other (List.mem_cons_of_mem _ member) key List.mem_cons_self same ▸
        member)
    cases cancelled : (calls key).cancel with
    | threw =>
      constructor
      · intro all
        have own := all key List.mem_cons_self
        simp [farewells, cancelled] at own
      · intro unbroken
        have own := unbroken.cancelled key List.mem_cons_self
        rw [cancelled] at own
        cases own
    | returned =>
      cases answered : (calls key).ask with
      | threw =>
        -- the loop ends here, so this must be its last queue
        cases rest with
        | nil =>
          constructor
          · exact fun _ => ⟨by simpa using cancelled, by simp⟩
          · intro _ other member
            rw [List.mem_singleton.mp member]
            simp [farewells, cancelled, answered]
        | cons next more =>
          constructor
          · intro all
            have told := all next (List.mem_cons_of_mem _ List.mem_cons_self)
            simp [farewells, cancelled, answered, foreign next List.mem_cons_self] at told
          · intro unbroken
            have own := unbroken.answered key (by simp)
            rw [answered] at own
            cases own
      | returned =>
        rw [unbroken_cons_iff cancelled answered, ← later]
        constructor
        · intro all other member
          have told := all other (List.mem_cons_of_mem _ member)
          simpa [farewells, cancelled, answered, foreign other member] using told
        · intro all other member
          simp only [farewells, cancelled, answered]
          rcases List.mem_cons.mp member with rfl | more
          · exact List.mem_cons_self
          · exact List.mem_cons_of_mem _ (List.mem_cons_of_mem _ (all other more))

theorem Sound.tellsAll_iff (valid : Sound shell) (calls : String → ShutDownCalls) :
    shell.TellsAll calls ↔ Unbroken shell.cancelPulsePool.keys calls := by
  let unheard : JobExecutorShell Key := { shell with told := [] }
  have sound : Sound unheard := ⟨valid.agrees, valid.pulsing, valid.refs, valid.created⟩
  have told : (unheard.dispose calls).1.told =
      farewells shell.coordinatorOf calls shell.cancelPulsePool.keys :=
    told_shutDownQueues calls sound shell.cancelPulsePool.keys_nodup fun _ member => member
  have pooled (key : String) (member : key ∈ shell.cancelPulsePool.keys) :
      (key, shell.coordinatorOf key) ∈ shell.coordinatorPool.entries := by
    obtain ⟨⟨_, ref⟩, listed, rfl⟩ := List.mem_map.mp ((valid.agrees key).mpr member)
    rw [coordinatorOf, Dictionary.lookup_eq_some_iff.mpr listed]
    exact listed
  rw [← @farewells_tell_all_iff Key shell.coordinatorOf _ _ shell.cancelPulsePool.keys_nodup,
    ← told]
  · constructor
    · exact fun all key member => all _ (pooled key member)
    · rintro all ⟨key, ref⟩ member
      have known := (valid.agrees key).mp (List.mem_map_of_mem member)
      rw [shell.coordinatorPool.entry_unique member (pooled key known)]
      exact all key known
  · intro left member right present same
    exact congrArg Prod.fst (List.inj_on_of_nodup_map valid.refs (pooled left member)
      (pooled right present) same)

theorem Sound.keepsPools_iff (valid : Sound shell) (collate : Option Ticks → Key)
    (calls : List (ShellCall Key)) :
    (shell.KeepsPools collate calls ↔ shell.AlwaysSchedules collate calls) ∧
      (shell.AlwaysSchedules collate calls → Sound (shell.run collate calls)) := by
  induction calls generalizing shell with
  | nil => exact ⟨Iff.rfl, fun _ => valid⟩
  | cons call rest ih =>
    cases call with
    | startJobQueue arguments calls =>
      constructor
      · constructor
        · intro ⟨agrees, _, later⟩
          have schedules := valid.schedules_of_agrees agrees
          exact ⟨schedules, (ih (valid.startJobQueue collate schedules).1).1.mp later⟩
        · intro ⟨schedules, later⟩
          have ⟨sound, undone⟩ := valid.startJobQueue collate schedules
          exact ⟨sound.agrees, undone, (ih sound).1.mpr later⟩
      · intro ⟨schedules, later⟩
        exact (ih (valid.startJobQueue collate schedules).1).2 later
    | shutDownQueue queueName calls =>
      have sound := valid.shutDownQueue queueName calls
      constructor
      · constructor
        · exact fun ⟨_, _, later⟩ => ⟨trivial, (ih sound).1.mp later⟩
        · exact fun ⟨_, later⟩ => ⟨sound.agrees, trivial, (ih sound).1.mpr later⟩
      · exact fun ⟨_, later⟩ => (ih sound).2 later

/-- The dictionaries agree after every call, failed starts leave no trace in them and
`Dispose` reaches every coordinator, exactly where no start has its delays rejected and
nothing but the last shutdown of `Dispose` throws. -/
theorem pools_agree_iff (collate : Option Ticks → Key) (calls : List (ShellCall Key))
    (ends : String → ShutDownCalls) :
    (({} : JobExecutorShell Key).KeepsPools collate calls ∧
      (({} : JobExecutorShell Key).run collate calls).TellsAll ends) ↔
    (({} : JobExecutorShell Key).AlwaysSchedules collate calls ∧
      Unbroken (({} : JobExecutorShell Key).run collate calls).cancelPulsePool.keys ends) := by
  have ⟨pools, sound⟩ := (@sound_empty Key).keepsPools_iff collate calls
  constructor
  · exact fun ⟨keeps, tells⟩ =>
      ⟨pools.mp keeps, ((sound (pools.mp keeps)).tellsAll_iff ends).mp tells⟩
  · exact fun ⟨schedules, unbroken⟩ =>
      ⟨pools.mpr schedules, ((sound schedules).tellsAll_iff ends).mpr unbroken⟩

/-- `StartJobQueue("default", 1, pulseDelayInSeconds: 0)`, whose interval the scheduler rejects. -/
def rejectedStart : ShellCall Int :=
  .startJobQueue { queueName := "default", numWorkers := 1, pulseDelayInSeconds := 0 }
    { scheduleTellRepeatedly := .threw }

/-- The coordinator of the rejected start stays in its pool without a token: the next start
of that name does nothing, and `Dispose` passes the coordinator over. -/
theorem rejected_start_is_forgotten :
    ¬ ({} : JobExecutorShell Int).KeepsPools (fun _ => 0) [rejectedStart] ∧
    (let shell := ({} : JobExecutorShell Int).run (fun _ => 0) [rejectedStart];
      shell.coordinatorPool.keys = ["default"] ∧ shell.cancelPulsePool.keys = [] ∧
      shell.startJobQueue (fun _ => 0)
        { queueName := "default", numWorkers := 1, pulseDelayInSeconds := 5 } {} =
          (shell, .returned) ∧
      ¬ shell.TellsAll fun _ => {}) := by
  refine ⟨fun ⟨agrees, _⟩ => ?_, rfl, rfl, rfl, fun tells => ?_⟩
  · have pulsing := (agrees "default").mp (by decide)
    exact absurd pulsing (by decide)
  · have told := tells ("default", 0) (by decide)
    cases told

end JobExecutorShell

end OddJob.Akka
