import OddJob.Akka.Custody
import OddJob.FileSystem.Mirror

/-! Any number of execution engines over one queue file, with adders beside them. An
operation holds the file alone and so is one step; how long anything takes, and what any
clock says, is left open. -/

namespace OddJob.FileSystem

open Akka Transition

variable {CliType Value : Type}

/-- A job in the file has a type. -/
instance : OddJobWithMetadata (FileSystemJobMetaData CliType Value) where
  jobId := FileSystemJobMetaData.jobId
  typeMissing _ := false
  retryParameters := FileSystemJobMetaData.retryParameters

/-- One process: its engine, and what its queue layer has taken out of the file. -/
structure Process (CliType Value : Type) where
  engine : Engine (FileSystemJobMetaData CliType Value)
  crashed : Bool := false
  /-- what the `GetJobs` under way returns -/
  results : Option (List (FileSystemJobMetaData CliType Value)) := none

structure Engines (CliType Value : Type) where
  serializer : List (FileSystemJobMetaData CliType Value) := []
  /-- the jobs that were added, with the retry parameters they were given -/
  added : List (Guid × RetryParameters) := []
  processes : List (Process CliType Value)

structure ProcessSettings where
  queueName : String
  numWorkers : Nat
  aggressiveSweep : Bool

/-- An empty queue, and processes that have just been configured. -/
def Engines.configured (settings : List ProcessSettings) : Engines CliType Value where
  processes := settings.map fun process => {
    engine := Engine.configured process.queueName process.numWorkers process.aggressiveSweep }

inductive EnginesAction (CliType Value : Type) where
  | addJob (jobData : OddJob CliType Value) (retryParameters : Option RetryParameters)
      (executionTime : Option Ticks) (queueName : String) (jobId : Guid) (now : Ticks)
  | crash (index : Nat)
  /-- a step of an engine that does nothing to the file -/
  | act (index : Nat) (action : Akka.Action (FileSystemJobMetaData CliType Value))
  | getJobs (index : Nat) (now queueTime : Nat → Ticks)
  | reply (index : Nat)
  | fetchThrew (index : Nat)
  /-- the queue layer processes a command, and comes as far as the file or throws before -/
  | command (index : Nat) (now : Ticks) (reaches : Bool)

namespace Engines

def update (engines : Engines CliType Value) (index : Nat) (process : Process CliType Value) :
    Engines CliType Value :=
  { engines with processes := engines.processes.set index process }

def running (engines : Engines CliType Value) (index : Nat) : Option (Process CliType Value) :=
  engines.processes[index]?.filter fun process => !process.crashed

/-- The list after an operation; one that throws leaves it as it was. -/
def written (serializer : List (FileSystemJobMetaData CliType Value))
    (operation : Operation CliType Value) : List (FileSystemJobMetaData CliType Value) :=
  match operation.run serializer with
  | .ok (after, _) => after
  | .error _ => serializer

def stepProcess (engines : Engines CliType Value) (index : Nat)
    (process : Process CliType Value) : EnginesAction CliType Value → Option (Engines CliType Value)
  | .crash _ => some (engines.update index { process with crashed := true })
  | .act _ action =>
    if process.engine.runsNoStatement action then
      (process.engine.step action).map fun engine => engines.update index { process with engine }
    else none
  | .getJobs _ now queueTime =>
    match process.engine.fetching, process.results with
    | some request, none =>
      match FileSystem.getJobs [request.queueName] request.fetchSize now queueTime
          engines.serializer with
      | .ok (serializer, results) =>
        some ({ engines with serializer }.update index { process with results := some results })
      | .error _ => none
    | _, _ => none
  | .reply _ =>
    process.results.bind fun results =>
      (process.engine.step (.layerReply (some results))).map fun engine =>
        engines.update index { process with engine, results := none }
  | .fetchThrew _ =>
    (process.engine.step (.layerReply none)).map fun engine =>
      engines.update index { process with engine, results := none }
  | .command _ now reaches =>
    match process.engine.layer with
    | .command command :: _ =>
      (process.engine.step .layerReceive).map fun engine =>
        { engines with serializer :=
            if reaches then written engines.serializer (.mark command.mark command.jobId now)
            else engines.serializer }.update index { process with engine }
    | _ => none
  | .addJob .. => none

/-- One step of one process or of an adder, whose `Guid` is a new one. -/
def step (engines : Engines CliType Value) (action : EnginesAction CliType Value) :
    Option (Engines CliType Value) :=
  match action with
  | .addJob jobData retryParameters executionTime queueName jobId now =>
    if jobId ∈ engines.added.map Prod.fst then none
    else some { engines with
      serializer := written engines.serializer
        (FileSystem.addJob jobData retryParameters executionTime queueName jobId now)
      added := engines.added ++ [(jobId, retryParameters.getD {})] }
  | .crash index | .act index _ | .getJobs index _ _ | .reply index | .fetchThrew index
  | .command index _ _ =>
    (engines.running index).bind fun process => engines.stepProcess index process action

variable {engines after : Engines CliType Value} {action : EnginesAction CliType Value}

inductive Moves (engines : Engines CliType Value) :
    EnginesAction CliType Value → Engines CliType Value → Prop where
  | added (action : EnginesAction CliType Value) (data : FileSystemJobMetaData CliType Value)
      (parameters : RetryParameters) (fresh : data.jobId ∉ engines.added.map Prod.fst)
      (new : data.status = .new) (given : data.retryParameters = some parameters) :
      Moves engines action { engines with
        serializer := engines.serializer ++ [data]
        added := engines.added ++ [(data.jobId, parameters)] }
  | crashed (index : Nat) (process : Process CliType Value)
      (found : engines.running index = some process) :
      Moves engines (.crash index) (engines.update index { process with crashed := true })
  | acted (index : Nat) (process : Process CliType Value)
      (action : Akka.Action (FileSystemJobMetaData CliType Value))
      (engine : Engine (FileSystemJobMetaData CliType Value))
      (found : engines.running index = some process)
      (inside : process.engine.runsNoStatement action = true)
      (taken : process.engine.step action = some engine) :
      Moves engines (.act index action) (engines.update index { process with engine })
  | fetched (index : Nat) (process : Process CliType Value) (request : GetJobs)
      (now queueTime : Nat → Ticks) (serializer results : List (FileSystemJobMetaData CliType Value))
      (found : engines.running index = some process) (free : process.results = none)
      (done : FileSystem.getJobs [request.queueName] request.fetchSize now queueTime
        engines.serializer = .ok (serializer, results)) :
      Moves engines (.getJobs index now queueTime) ({ engines with serializer }.update index
        { process with results := some results })
  | replied (index : Nat) (process : Process CliType Value)
      (results : List (FileSystemJobMetaData CliType Value))
      (engine : Engine (FileSystemJobMetaData CliType Value))
      (found : engines.running index = some process) (returned : process.results = some results)
      (taken : process.engine.step (.layerReply (some results)) = some engine) :
      Moves engines (.reply index) (engines.update index { process with engine, results := none })
  | threw (index : Nat) (process : Process CliType Value)
      (engine : Engine (FileSystemJobMetaData CliType Value))
      (found : engines.running index = some process)
      (taken : process.engine.step (.layerReply none) = some engine) :
      Moves engines (.fetchThrew index)
        (engines.update index { process with engine, results := none })
  | marked (index : Nat) (process : Process CliType Value) (command : Command)
      (rest : List LayerMessage) (engine : Engine (FileSystemJobMetaData CliType Value))
      (now : Ticks) (serializer : List (FileSystemJobMetaData CliType Value))
      (found : engines.running index = some process)
      (front : process.engine.layer = .command command :: rest)
      (taken : process.engine.step .layerReceive = some engine)
      (done : writeJobState command.jobId (transformFunc command.mark now) engines.serializer =
        .ok serializer) :
      Moves engines (.command index now true)
        ({ engines with serializer }.update index { process with engine })
  | lost (index : Nat) (process : Process CliType Value) (command : Command)
      (rest : List LayerMessage) (engine : Engine (FileSystemJobMetaData CliType Value))
      (now : Ticks) (reaches : Bool) (found : engines.running index = some process)
      (front : process.engine.layer = .command command :: rest)
      (taken : process.engine.step .layerReceive = some engine)
      (failed : reaches = true → ∃ thrown,
        writeJobState command.jobId (transformFunc command.mark now) engines.serializer =
          .error thrown) :
      Moves engines (.command index now reaches) (engines.update index { process with engine })

private theorem written_mark (serializer : List (FileSystemJobMetaData CliType Value))
    (mark : Mark) (jobId : Guid) (now : Ticks) :
    (∃ after, writeJobState jobId (transformFunc mark now) serializer = .ok after ∧
      written serializer (.mark mark jobId now) = after) ∨
    ∃ thrown, writeJobState jobId (transformFunc mark now) serializer = .error thrown ∧
      written serializer (.mark mark jobId now) = serializer := by
  unfold written
  rw [Operation.run]
  cases writeJobState jobId (transformFunc mark now) serializer with
  | ok after => exact .inl ⟨after, rfl, rfl⟩
  | error thrown => exact .inr ⟨thrown, rfl, rfl⟩

theorem moves_of_step (taken : engines.step action = some after) :
    Moves engines action after := by
  cases action with
  | addJob jobData retryParameters executionTime queueName jobId now =>
    obtain ⟨fresh, ⟨⟩⟩ := Option.ite_none_left_eq_some.mp taken
    exact .added _ _ (retryParameters.getD {}) fresh rfl rfl
  | crash index =>
    obtain ⟨process, found, ⟨⟩⟩ := Option.bind_eq_some_iff.mp taken
    exact .crashed index process found
  | act index action =>
    obtain ⟨process, found, acted⟩ := Option.bind_eq_some_iff.mp taken
    obtain ⟨inside, stepped⟩ := Option.ite_none_right_eq_some.mp acted
    obtain ⟨engine, moved, rfl⟩ := Option.map_eq_some_iff.mp stepped
    exact .acted index process action engine found inside moved
  | getJobs index now queueTime =>
    obtain ⟨process, found, fetched⟩ := Option.bind_eq_some_iff.mp taken
    simp only [stepProcess] at fetched
    split at fetched
    · rename_i request _ free
      split at fetched
      · rename_i serializer results done
        cases fetched
        exact .fetched index process request now queueTime serializer results found free done
      · cases fetched
    · cases fetched
  | reply index =>
    obtain ⟨process, found, replied⟩ := Option.bind_eq_some_iff.mp taken
    obtain ⟨results, returned, stepped⟩ := Option.bind_eq_some_iff.mp replied
    obtain ⟨engine, moved, rfl⟩ := Option.map_eq_some_iff.mp stepped
    exact .replied index process results engine found returned moved
  | fetchThrew index =>
    obtain ⟨process, found, threw⟩ := Option.bind_eq_some_iff.mp taken
    obtain ⟨engine, moved, rfl⟩ := Option.map_eq_some_iff.mp threw
    exact .threw index process engine found moved
  | command index now reaches =>
    obtain ⟨process, found, processed⟩ := Option.bind_eq_some_iff.mp taken
    simp only [stepProcess] at processed
    split at processed
    · rename_i command rest front
      obtain ⟨engine, moved, rfl⟩ := Option.map_eq_some_iff.mp processed
      cases reaches with
      | false =>
        exact .lost index process command rest engine now false found front moved nofun
      | true =>
        rw [if_pos rfl]
        rcases written_mark engines.serializer command.mark command.jobId now with
          ⟨serializer, done, same⟩ | ⟨thrown, failed, same⟩
        · rw [same]
          exact .marked index process command rest engine now serializer found front moved done
        · rw [same]
          exact .lost index process command rest engine now true found front moved
            fun _ => ⟨thrown, failed⟩
    · cases processed

end Engines

end OddJob.FileSystem
