import OddJob.Akka.Progress
import OddJob.Sql.Store

/-! Any number of execution engines that poll one database, with adders beside
them. The queue layer of an engine runs the statements: a `GetJobs` is a claiming
`UPDATE` and a `SELECT`, a command is one `UPDATE`, and each may throw. -/

namespace OddJob

open Akka Sql Transition

variable {Key CliType Value : Type} [LinearOrder Key]

/-- A fetched job; the claim that produced it is remembered beside it. -/
structure Fetched (CliType Value : Type) where
  job : SqlDbOddJob CliType Value
  lockGuid : Guid
  claimedAt : Ticks

instance : OddJobWithMetadata (Fetched CliType Value) where
  jobId fetched := fetched.job.jobId
  typeMissing fetched := OddJobWithMetadata.typeMissing fetched.job
  retryParameters fetched := OddJobWithMetadata.retryParameters fetched.job

/-- One process: its engine, and what its queue layer is doing to the database. -/
structure Node (CliType Value : Type) where
  engine : Engine (Fetched CliType Value)
  decoder : Decoder CliType Value
  crashed : Bool := false
  /-- lock and time of the claim whose rows the current `GetJobs` has still to read -/
  claimed : Option (Guid × Ticks) := none
  /-- the commands the database has carried out, and when -/
  applied : List (Command × Ticks) := []

/-- What the processes are configured with alike. -/
structure Configuration (Key : Type) where
  jobClaimLockTimeoutInSeconds : Int
  /-- how the database orders a column of nullable dates -/
  collate : Option Ticks → Key

def Configuration.lockTimeout (configuration : Configuration Key) : Ticks :=
  configuration.jobClaimLockTimeoutInSeconds * ticksPerSecond

structure Cluster (CliType Value : Type) where
  store : Store := {}
  now : Ticks
  /-- every lock a fetch has made up, and the process it was made up in -/
  locks : List (Guid × Nat) := []
  nodes : List (Node CliType Value)

structure NodeSettings (CliType Value : Type) where
  queueName : String
  numWorkers : Nat
  aggressiveSweep : Bool
  decoder : Decoder CliType Value

/-- Empty tables, and processes that have just been configured. -/
def Cluster.configured (now : Ticks) (settings : List (NodeSettings CliType Value)) :
    Cluster CliType Value where
  now
  nodes := settings.map fun node => {
    engine := Engine.configured node.queueName node.numWorkers node.aggressiveSweep
    decoder := node.decoder }

inductive ClusterAction (CliType Value : Type) where
  | wait (later : Ticks)
  | insert (jobData : SerializableOddJob)
  | proceed (jobId : Guid)
  | crash (index : Nat)
  /-- a step of an engine that runs no statement -/
  | act (index : Nat) (action : Akka.Action (Fetched CliType Value))
  | claim (index : Nat) (lockGuid : Guid) (scan : List SqlCommonDbOddJobMetaData)
  | reply (index : Nat) (rows : List SqlQueueRowSet)
  | fetchThrew (index : Nat)
  /-- the queue layer processes a command, and the statement reaches the database or throws -/
  | command (index : Nat) (reaches : Bool)

namespace Node

variable (node : Node CliType Value)

/-- The step of the engine runs no statement. -/
def runsNoStatement (action : Akka.Action (Fetched CliType Value)) : Bool :=
  match action with
  | .layerReply _ => false
  | .layerReceive =>
    match node.engine.layer with
    | .command _ :: _ => false
    | _ => true
  | _ => true

/-- `jobQueue.GetJobs(new[] {msg.QueueName}, msg.FetchSize, (q)=>q.MostRecentDate)` -/
def call (configuration : Configuration Key) (request : GetJobs) (lockGuid : Guid) (now : Ticks) :
    Claim Key where
  queueNames := [request.queueName]
  fetchSize := request.fetchSize
  orderPredicate q := configuration.collate q.mostRecentDate
  lockGuid
  lockTime := now
  jobClaimLockTimeoutInSeconds := configuration.jobClaimLockTimeoutInSeconds

/-- The result of `GetJobs`, or nothing where decoding throws. -/
def fetch (rows : List SqlQueueRowSet) (lockGuid : Guid) (claimedAt : Ticks) :
    Option (List (Fetched CliType Value)) :=
  match toList (executeJoinQuery node.decoder rows) with
  | .ok jobs => some (jobs.map fun job => { job, lockGuid, claimedAt })
  | .error _ => none

/-- When the `MarkJobInProgress` of a job was carried out. -/
def inProgressAt (ticket : Nat) : Option Ticks :=
  (node.applied.find? fun entry =>
    entry.1.mark = .markJobInProgress ∧ entry.1.ticket = ticket).map Prod.snd

/-- The command the queue layer processes next. -/
def nextCommand : Option Command :=
  match node.engine.layer with
  | .command command :: _ => some command
  | _ => none

/-- The last command of a job was carried out. -/
def closed (ticket : Nat) : Bool :=
  node.applied.any fun entry => entry.1.mark ≠ .markJobInProgress ∧ entry.1.ticket = ticket

end Node

namespace Cluster

def update (cluster : Cluster CliType Value) (index : Nat) (node : Node CliType Value) :
    Cluster CliType Value :=
  { cluster with nodes := cluster.nodes.set index node }

def running (cluster : Cluster CliType Value) (index : Nat) : Option (Node CliType Value) :=
  cluster.nodes[index]?.filter fun node => !node.crashed

def stepNode (configuration : Configuration Key) (cluster : Cluster CliType Value) (index : Nat)
    (node : Node CliType Value) : ClusterAction CliType Value → Option (Cluster CliType Value)
  | .crash _ => some (cluster.update index { node with crashed := true })
  | .act _ action =>
    if node.runsNoStatement action then
      (node.engine.step action).map fun engine => cluster.update index { node with engine }
    else none
  | .claim _ lockGuid scan =>
    match node.engine.fetching, node.claimed with
    | some request, none =>
      if scan.Perm cluster.store.tables.queue ∧ lockGuid ∉ cluster.locks.map Prod.fst then
        some ({ cluster with
          store := cluster.store.claim (Node.call configuration request lockGuid cluster.now) scan
          locks := cluster.locks ++ [(lockGuid, index)] }.update index
            { node with claimed := some (lockGuid, cluster.now) })
      else none
    | _, _ => none
  | .reply _ rows =>
    match node.claimed with
    | some (lockGuid, claimedAt) =>
      if Returns cluster.store.tables (fun q => q.lockGuid = some lockGuid) rows then
        (node.engine.step (.layerReply (node.fetch rows lockGuid claimedAt))).map fun engine =>
          { cluster with store := cluster.store.read rows }.update index
            { node with engine, claimed := none }
      else none
    | none => none
  | .fetchThrew _ =>
    (node.engine.step (.layerReply none)).map fun engine =>
      cluster.update index { node with engine, claimed := none }
  | .command _ reaches =>
    match node.engine.layer with
    | .command command :: _ =>
      (node.engine.step .layerReceive).map fun engine =>
        if reaches then
          { cluster with
            store := cluster.store.mark command.mark command.jobId cluster.now }.update index
              { node with engine, applied := node.applied ++ [(command, cluster.now)] }
        else cluster.update index { node with engine }
    | _ => none
  | _ => none

/-- One step of one process, of an adder or of the clock. -/
def step (configuration : Configuration Key) (cluster : Cluster CliType Value)
    (action : ClusterAction CliType Value) : Option (Cluster CliType Value) :=
  match action with
  | .wait later => if cluster.now ≤ later then some { cluster with now := later } else none
  | .insert jobData =>
    (cluster.store.step (.insert jobData cluster.now : Store.Action Key)).map fun store =>
      { cluster with store }
  | .proceed jobId =>
    (cluster.store.step (.proceed jobId : Store.Action Key)).map fun store =>
      { cluster with store }
  | .crash index | .act index _ | .claim index _ _ | .reply index _ | .fetchThrew index
  | .command index _ =>
    (cluster.running index).bind fun node => cluster.stepNode configuration index node action

/-- Every job handed to a worker has its `MarkJobInProgress` carried out within the lock
timeout of the claim that produced it. -/
def Timely (configuration : Configuration Key) (cluster : Cluster CliType Value) : Prop :=
  ∀ node ∈ cluster.nodes, ∀ request ∈ node.engine.requests,
    (node.inProgressAt request.ticket).getD cluster.now ≤
      request.jobData.claimedAt + configuration.lockTimeout

instance (configuration : Configuration Key) :
    DecidablePred (@Timely Key CliType Value configuration) := fun cluster =>
  inferInstanceAs (Decidable (∀ node ∈ cluster.nodes, ∀ request ∈ node.engine.requests, _ ≤ _))

/-- Every command of a coordinator is carried out while the row of its job still has the
lock of the claim that the command follows from. -/
def Owned (cluster : Cluster CliType Value) : ClusterAction CliType Value → Prop
  | .command index true =>
    ∀ node ∈ cluster.nodes[index]?, ∀ command ∈ node.nextCommand,
      ∀ fetched ∈ node.engine.taken[command.ticket]?,
        ∀ row ∈ cluster.store.tables.queue, row.jobGuid = command.jobId →
          row.lockGuid = some fetched.lockGuid
  | _ => True

instance (cluster : Cluster CliType Value) : DecidablePred cluster.Owned
  | .command index true => inferInstanceAs (Decidable (∀ node ∈ cluster.nodes[index]?,
      ∀ command ∈ node.nextCommand, ∀ fetched ∈ node.engine.taken[command.ticket]?,
        ∀ row ∈ cluster.store.tables.queue, row.jobGuid = command.jobId →
          row.lockGuid = some fetched.lockGuid))
  | .command _ false | .wait _ | .insert _ | .proceed _ | .crash _ | .act _ _ | .claim _ _ _
  | .reply _ _ | .fetchThrew _ => .isTrue trivial

end Cluster

end OddJob
