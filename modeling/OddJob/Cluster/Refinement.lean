import OddJob.Cluster.Moves
import OddJob.Lib.Lease

/-! The cluster, seen from one job: its row is a record that is worked on under
leases, and every fetched copy of the job is a lease. Each step of the cluster is a
step of that record, or none. -/

namespace OddJob

open Akka Sql Linq Transition

variable {Key CliType Value : Type}

def JobStates.leaseStatus : JobStates → Lease.Status
  | .inserting => .hidden
  | .new => .fresh
  | .retry => .retrying
  | .inProgress => .started
  | .processed | .failed | .other _ => .settled

def Akka.Stage.progress : Stage → Lease.Progress
  | .fetched | .missing => .idle
  | .waiting => .handed
  | .executing => .running
  | .executed _ | .handled _ _ => .ended

namespace Node

variable {fetchedIds : List Guid} {locks : List (Guid × Nat)} {index ticket : Nat}
  {node : Node CliType Value}

/-- Nothing is carried out for a job but what its stage calls for. -/
theorem Sound.applied_stage (valid : node.Sound fetchedIds locks index)
    {entry : Command × Ticks} (member : entry ∈ node.applied) :
    ∃ fetched, node.engine.taken[entry.1.ticket]? = some fetched ∧
      entry.1 ∈ (node.engine.stage entry.1.ticket).commands fetched entry.1.ticket := by
  have sent : entry.1 ∈ node.engine.commands := by
    rw [valid.inOrder]
    exact List.mem_append_left _ (valid.applied entry member)
  obtain ⟨fetched, taken, _, listed⟩ := valid.told.command_stage sent
  exact ⟨fetched, taken, listed⟩

/-- What a process contributes to the executions of a job. -/
def executionsOf (node : Node CliType Value) (jobId : Guid) :
    List (ExecuteJobRequest (Fetched CliType Value)) :=
  node.engine.began.filter fun request => request.jobData.job.jobId = jobId

theorem inProgressAt_eq_none (unmarked : ∀ entry ∈ node.applied, entry.1.ticket = ticket →
    entry.1.mark ≠ .markJobInProgress) : node.inProgressAt ticket = none := by
  rw [inProgressAt, Option.map_eq_none_iff, List.find?_eq_none]
  intro entry member
  simp only [decide_eq_true_eq, not_and]
  exact fun mark same => unmarked entry member same mark

theorem closed_eq_false (only : ∀ entry ∈ node.applied, entry.1.ticket = ticket →
    entry.1.mark = .markJobInProgress) : node.closed ticket = false := by
  rw [closed, List.any_eq_false]
  intro entry member
  simp only [decide_eq_true_eq, not_and]
  exact fun mark same => mark (only entry member same)

theorem Sound.inProgressAt_fetched (valid : node.Sound fetchedIds locks index)
    (stage : node.engine.stage ticket = .fetched) : node.inProgressAt ticket = none := by
  apply inProgressAt_eq_none
  intro entry member same
  obtain ⟨_, _, listed⟩ := valid.applied_stage member
  rw [same, stage] at listed
  cases listed

/-- As long as the result of a job has not been handled, its last command is not sent. -/
theorem Sound.closed_unhandled (valid : node.Sound fetchedIds locks index)
    (missing : node.engine.stage ticket ≠ .missing)
    (unhandled : (node.engine.stage ticket).isHandled = false) : node.closed ticket = false := by
  apply closed_eq_false
  intro entry member same
  obtain ⟨_, _, listed⟩ := valid.applied_stage member
  rw [same] at listed
  cases stage : node.engine.stage ticket with
  | fetched =>
    rw [stage] at listed
    cases listed
  | missing => exact absurd stage missing
  | waiting | executing | executed outcome =>
    rw [stage] at listed
    rw [List.mem_singleton.mp listed]
  | handled outcome now =>
    rw [stage] at unhandled
    cases unhandled

theorem Sound.untaken (valid : node.Sound fetchedIds locks index)
    (bound : node.engine.taken.length ≤ ticket) :
    node.engine.stage ticket = .fetched := valid.tracked.untaken ticket bound

end Node

namespace Cluster

/-- The row of a job, as the record of its leases. -/
structure RowModel (configuration : Configuration Key) (row : SqlCommonDbOddJobMetaData)
    (item : Lease.Item Guid Ticks) : Prop where
  status : item.status = row.status.leaseStatus
  holder : item.holder = row.lockGuid
  deadline : item.deadline = row.lockClaimTime.map (· + configuration.lockTimeout)
  attempts : item.attempts = row.retryCount
  limit : item.status ≠ .hidden → item.limit = row.maxRetries

/-- A fetched job, as the lease it was fetched under. -/
structure LeaseModel (configuration : Configuration Key) (node : Node CliType Value) (ticket : Nat)
    (fetched : Fetched CliType Value) (limit : Int) (holding : Lease.Holding Ticks) : Prop where
  deadline : holding.deadline = fetched.claimedAt + configuration.lockTimeout
  seen : holding.seen = some fetched.job.retryParameters.retryCount
  limit : fetched.job.retryParameters.maxRetries = limit
  progress : holding.progress = (node.engine.stage ticket).progress
  startedAt : holding.startedAt = node.inProgressAt ticket
  closed : holding.closed = node.closed ticket

/-- The process at `index` took the job under this ticket. -/
structure Took (cluster : Cluster CliType Value) (jobId : Guid) (index : Nat)
    (node : Node CliType Value) (ticket : Nat) (fetched : Fetched CliType Value) : Prop where
  found : cluster.nodes[index]? = some node
  taken : node.engine.taken[ticket]? = some fetched
  same : fetched.job.jobId = jobId

/-- The calls of `ExecuteJob` in all processes. -/
def began (cluster : Cluster CliType Value) : List (ExecuteJobRequest (Fetched CliType Value)) :=
  cluster.nodes.flatMap fun node => node.engine.began

def executionsOf (cluster : Cluster CliType Value) (jobId : Guid) :
    List (ExecuteJobRequest (Fetched CliType Value)) :=
  cluster.began.filter fun request => request.jobData.job.jobId = jobId

structure Models (configuration : Configuration Key) (jobId : Guid)
    (cluster : Cluster CliType Value) (item : Lease.Item Guid Ticks) : Prop where
  now : item.now = cluster.now
  row : ∀ row ∈ cluster.store.tables.queue, row.jobGuid = jobId → RowModel configuration row item
  absent : (∀ row ∈ cluster.store.tables.queue, row.jobGuid ≠ jobId) →
    item.status = .hidden ∧ item.attempts = 0 ∧ item.holder = none ∧ item.deadline = none
  hidden : item.status = .hidden → ∀ lock, item.holdings lock = none
  owner : ∀ lock, item.holder = some lock → item.holdings lock ≠ none
  known : ∀ lock, item.holdings lock ≠ none → lock ∈ cluster.locks.map Prod.fst
  pending : ∀ (index : Nat) (node : Node CliType Value), cluster.nodes[index]? = some node →
    ∀ claim ∈ node.claimed, ∀ holding, item.holdings claim.1 = some holding →
      holding = { deadline := claim.2 + configuration.lockTimeout }
  lease : ∀ index node ticket fetched, cluster.Took jobId index node ticket fetched →
    ∃ holding, item.holdings fetched.lockGuid = some holding ∧
      LeaseModel configuration node ticket fetched item.limit holding
  genuine : ∀ lock holding, item.holdings lock = some holding → holding.progress ≠ .idle →
    ∃ index node ticket fetched, cluster.Took jobId index node ticket fetched ∧
      fetched.lockGuid = lock
  executions : item.executions = (cluster.executionsOf jobId).length

theorem models_configured (configuration : Configuration Key) (jobId : Guid) (now : Ticks)
    (settings : List (NodeSettings CliType Value)) :
    Models configuration jobId (configured now settings) { now } where
  now := rfl
  row row member := by cases member
  absent _ := ⟨rfl, rfl, rfl, rfl⟩
  hidden _ _ := rfl
  owner _ none := by cases none
  known _ some := absurd rfl some
  pending _ _ _ _ _ _ none := by cases none
  lease index node ticket fetched took := by
    obtain ⟨found, taken, _⟩ := took
    obtain ⟨given, _, rfl⟩ := List.mem_map.mp (List.mem_of_getElem? found)
    cases taken
  genuine _ _ none := by cases none
  executions := by
    have none : (configured now settings).began = [] := by
      apply List.flatMap_eq_nil_iff.mpr
      intro node member
      obtain ⟨given, _, rfl⟩ := List.mem_map.mp member
      rfl
    rw [executionsOf, none]
    rfl

variable {configuration : Configuration Key} {cluster after : Cluster CliType Value}
  {jobId : Guid} {item next : Lease.Item Guid Ticks} {index other ticket : Nat}
  {node others changed : Node CliType Value} {fetched fetches : Fetched CliType Value}

theorem owner_unique {locks : List (Guid × Nat)} (distinct : (locks.map Prod.fst).Nodup)
    {lock : Guid} (left : (lock, index) ∈ locks) (right : (lock, other) ∈ locks) : index = other :=
  congrArg Prod.snd (List.inj_on_of_nodup_map distinct left right rfl)

theorem Took.owned (took : cluster.Took jobId index node ticket fetched) (sound : Sound cluster) :
    (fetched.lockGuid, index) ∈ cluster.locks :=
  ((sound.node index node took.found).fetched fetched (List.mem_of_getElem? took.taken)).2

/-- A lease on the job is under one ticket of one process. -/
theorem Took.unique (took : cluster.Took jobId index node ticket fetched)
    {tickets : Nat} (takes : cluster.Took jobId other others tickets fetches)
    (sound : Sound cluster) (same : fetched.lockGuid = fetches.lockGuid) :
    index = other ∧ ticket = tickets := by
  obtain rfl := owner_unique sound.locks (took.owned sound) (same ▸ takes.owned sound)
  obtain rfl : node = others := Option.some.inj (took.found.symm.trans takes.found)
  exact ⟨rfl, (sound.node index node took.found).once ticket tickets fetched fetches took.taken
    takes.taken same (took.same.trans takes.same.symm)⟩

theorem Models.shown_of_held {lock : Guid} {holding : Lease.Holding Ticks}
    (valid : Models configuration jobId cluster item) (held : item.holdings lock = some holding) :
    item.status ≠ .hidden := by
  intro hidden
  rw [valid.hidden hidden] at held
  cases held

/-- The statements of other clients, and marks: the leases are left alone. -/
theorem Models.record {store : Store} (valid : Models configuration jobId cluster item)
    (now : next.now = item.now) (holdings : next.holdings = item.holdings)
    (executions : next.executions = item.executions)
    (row : ∀ row ∈ store.tables.queue, row.jobGuid = jobId → RowModel configuration row next)
    (absent : (∀ row ∈ store.tables.queue, row.jobGuid ≠ jobId) →
      (∀ row ∈ cluster.store.tables.queue, row.jobGuid ≠ jobId) ∧ next = item)
    (hidden : next.status = .hidden → item.status = .hidden)
    (owner : ∀ lock, next.holder = some lock → item.holdings lock ≠ none)
    (limit : next.limit = item.limit ∨ item.status = .hidden) :
    Models configuration jobId { cluster with store } next := by
  constructor
  · exact now.trans valid.now
  · exact row
  · intro none
    obtain ⟨missing, rfl⟩ := absent none
    exact valid.absent missing
  · intro invisible
    rw [holdings]
    exact valid.hidden (hidden invisible)
  · rw [holdings]
    exact owner
  · rw [holdings]
    exact valid.known
  · rw [holdings]
    exact valid.pending
  · intro index node ticket fetched took
    obtain ⟨holding, found, model⟩ := valid.lease index node ticket fetched
      ⟨took.found, took.taken, took.same⟩
    rw [holdings]
    rcases limit with same | invisible
    · exact ⟨holding, found, same ▸ model⟩
    · rw [valid.hidden invisible] at found
      cases found
  · intro lock holding found busy
    rw [holdings] at found
    obtain ⟨index, node, ticket, fetched, took, same⟩ := valid.genuine lock holding found busy
    exact ⟨index, node, ticket, fetched, ⟨took.found, took.taken, took.same⟩, same⟩
  · exact executions.trans valid.executions

/-- The leases may differ, the record does not. -/
structure SameRecord (left right : Lease.Item Guid Ticks) : Prop where
  now : left.now = right.now
  status : left.status = right.status
  holder : left.holder = right.holder
  deadline : left.deadline = right.deadline
  attempts : left.attempts = right.attempts
  limit : left.limit = right.limit

theorem Models.process {locks : List (Guid × Nat)} (valid : Models configuration jobId cluster item)
    (sound : Sound cluster) (found : cluster.nodes[index]? = some node)
    (included : cluster.locks ⊆ locks) (distinct : (locks.map Prod.fst).Nodup)
    (record : SameRecord next item)
    (foreign : ∀ lock, (lock, index) ∉ locks → next.holdings lock = item.holdings lock)
    (kept : ∀ lock, item.holdings lock ≠ none → next.holdings lock ≠ none)
    (visible : item.status = .hidden → next.holdings = item.holdings)
    (pending : ∀ claim ∈ changed.claimed, ∀ holding, next.holdings claim.1 = some holding →
      holding = { deadline := claim.2 + configuration.lockTimeout })
    (lease : ∀ (ticket : Nat) (fetched : Fetched CliType Value),
      changed.engine.taken[ticket]? = some fetched → fetched.job.jobId = jobId →
      ∃ holding, next.holdings fetched.lockGuid = some holding ∧
        LeaseModel configuration changed ticket fetched item.limit holding)
    (genuine : ∀ lock holding, (lock, index) ∈ locks → next.holdings lock = some holding →
      holding.progress ≠ .idle → ∃ (ticket : Nat) (fetched : Fetched CliType Value),
        changed.engine.taken[ticket]? = some fetched ∧ fetched.job.jobId = jobId ∧
        fetched.lockGuid = lock)
    (executions : next.executions =
      (({ cluster with locks }.update index changed).executionsOf jobId).length) :
    Models configuration jobId ({ cluster with locks }.update index changed) next := by
  have here : (cluster.nodes.set index changed)[index]? = some changed :=
    List.getElem?_set_self (List.getElem?_eq_some_iff.mp found).1
  have elsewhere {other : Nat} (different : other ≠ index) :
      (cluster.nodes.set index changed)[other]? = cluster.nodes[other]? :=
    List.getElem?_set_ne (Ne.symm different)
  have unowned {lock : Guid} {other : Nat} (owned : (lock, other) ∈ cluster.locks)
      (different : other ≠ index) : (lock, index) ∉ locks :=
    fun mine => different (owner_unique distinct (included owned) mine)
  constructor
  · exact record.now.trans valid.now
  · intro row member same
    obtain ⟨status, holder, deadline, attempts, limit⟩ := valid.row row member same
    exact ⟨record.status.trans status, record.holder.trans holder, record.deadline.trans deadline,
      record.attempts.trans attempts, fun shown => record.limit.trans (limit (record.status ▸ shown))⟩
  · intro missing
    obtain ⟨status, attempts, holder, deadline⟩ := valid.absent missing
    exact ⟨record.status.trans status, record.attempts.trans attempts, record.holder.trans holder,
      record.deadline.trans deadline⟩
  · intro invisible
    have unshown := record.status.symm.trans invisible
    rw [visible unshown]
    exact valid.hidden unshown
  · intro lock own
    exact kept lock (valid.owner lock (record.holder.symm.trans own))
  · intro lock present
    by_cases mine : (lock, index) ∈ locks
    · exact List.mem_map.mpr ⟨_, mine, rfl⟩
    · rw [foreign lock mine] at present
      exact List.map_subset Prod.fst included (valid.known lock present)
  · intro other others there claim claimed holding present
    rcases node_of_update there with ⟨rfl, rfl⟩ | ⟨different, before⟩
    · exact pending claim claimed holding present
    · have owned := ((sound.node other others before).claimed claim claimed).1
      rw [foreign _ (unowned owned different)] at present
      exact valid.pending other others before claim claimed holding present
  · rintro other others ticket fetched ⟨there, taken, same⟩
    rw [record.limit]
    rcases node_of_update there with ⟨rfl, rfl⟩ | ⟨different, before⟩
    · exact lease ticket fetched taken same
    · have took : cluster.Took jobId other others ticket fetched := ⟨before, taken, same⟩
      rw [foreign _ (unowned (took.owned sound) different)]
      exact valid.lease other others ticket fetched took
  · intro lock holding present busy
    by_cases mine : (lock, index) ∈ locks
    · obtain ⟨ticket, fetched, taken, same, own⟩ := genuine lock holding mine present busy
      exact ⟨index, changed, ticket, fetched, ⟨here, taken, same⟩, own⟩
    · rw [foreign lock mine] at present
      obtain ⟨other, others, ticket, fetched, took, own⟩ := valid.genuine lock holding present busy
      have different : other ≠ index := by
        rintro rfl
        exact mine (included (own ▸ took.owned sound))
      exact ⟨other, others, ticket, fetched,
        ⟨(elsewhere different).trans took.found, took.taken, took.same⟩, own⟩
  · exact executions

theorem executionsOf_eq (cluster : Cluster CliType Value) (jobId : Guid) :
    cluster.executionsOf jobId = cluster.nodes.flatMap fun node => node.executionsOf jobId := by
  rw [executionsOf, began, List.filter_flatMap]
  rfl

theorem executionsOf_update (found : cluster.nodes[index]? = some node)
    (same : changed.executionsOf jobId = node.executionsOf jobId) :
    ((cluster.update index changed).executionsOf jobId).length =
      (cluster.executionsOf jobId).length := by
  rw [executionsOf_eq, executionsOf_eq]
  exact congrArg List.length (flatMap_set_same _ found same)

/-- The copy under a ticket stays where it is. -/
structure SameTicket (changed node : Node CliType Value) (ticket : Nat) : Prop where
  progress : (changed.engine.stage ticket).progress = (node.engine.stage ticket).progress
  startedAt : changed.inProgressAt ticket = node.inProgressAt ticket
  closed : changed.closed ticket = node.closed ticket

theorem SameTicket.lease {holding : Lease.Holding Ticks} {limit : Int}
    (same : SameTicket changed node ticket)
    (model : LeaseModel configuration node ticket fetched limit holding) :
    LeaseModel configuration changed ticket fetched limit holding :=
  ⟨model.deadline, model.seen, model.limit, model.progress.trans same.progress.symm,
    model.startedAt.trans same.startedAt.symm, model.closed.trans same.closed.symm⟩

/-- The copies of the job in this process stay where they are. -/
structure SameTickets (jobId : Guid) (changed node : Node CliType Value) : Prop where
  back : ∀ (ticket : Nat) (fetched : Fetched CliType Value),
    changed.engine.taken[ticket]? = some fetched → fetched.job.jobId = jobId →
    node.engine.taken[ticket]? = some fetched ∧ SameTicket changed node ticket
  forth : ∀ (ticket : Nat) (fetched : Fetched CliType Value),
    node.engine.taken[ticket]? = some fetched → changed.engine.taken[ticket]? = some fetched
  began : changed.executionsOf jobId = node.executionsOf jobId

private theorem Models.copy_of_busy {locks : List (Guid × Nat)} {lock : Guid}
    {holding : Lease.Holding Ticks} (valid : Models configuration jobId cluster item)
    (sound : Sound cluster) (found : cluster.nodes[index]? = some node)
    (included : cluster.locks ⊆ locks) (distinct : (locks.map Prod.fst).Nodup)
    (owned : (lock, index) ∈ locks) (held : item.holdings lock = some holding)
    (busy : holding.progress ≠ .idle) : ∃ (ticket : Nat) (fetched : Fetched CliType Value),
      node.engine.taken[ticket]? = some fetched ∧ fetched.job.jobId = jobId ∧
        fetched.lockGuid = lock := by
  obtain ⟨other, others, ticket, fetched, took, own⟩ := valid.genuine lock holding held busy
  obtain rfl := owner_unique distinct owned (included (own ▸ took.owned sound))
  obtain rfl : node = others := Option.some.inj (found.symm.trans took.found)
  exact ⟨ticket, fetched, took.taken, took.same, own⟩

theorem Models.steady {locks : List (Guid × Nat)} (valid : Models configuration jobId cluster item)
    (sound : Sound cluster) (found : cluster.nodes[index]? = some node)
    (included : cluster.locks ⊆ locks) (distinct : (locks.map Prod.fst).Nodup)
    (tickets : SameTickets jobId changed node)
    (pending : ∀ claim ∈ changed.claimed, ∀ holding, item.holdings claim.1 = some holding →
      holding = { deadline := claim.2 + configuration.lockTimeout }) :
    Models configuration jobId ({ cluster with locks }.update index changed) item := by
  refine valid.process sound found included distinct ⟨rfl, rfl, rfl, rfl, rfl, rfl⟩
    (fun _ _ => rfl) (fun _ => id) (fun _ => rfl) pending ?_ ?_ ?_
  · intro ticket fetched taken own
    obtain ⟨before, same⟩ := tickets.back ticket fetched taken own
    obtain ⟨holding, held, model⟩ := valid.lease index node ticket fetched ⟨found, before, own⟩
    exact ⟨holding, held, same.lease model⟩
  · intro lock holding owned held busy
    obtain ⟨ticket, fetched, taken, own⟩ :=
      valid.copy_of_busy sound found included distinct owned held busy
    exact ⟨ticket, fetched, tickets.forth ticket fetched taken, own⟩
  · exact valid.executions.trans (executionsOf_update found tickets.began).symm

theorem Models.hold {locks : List (Guid × Nat)} {lock : Guid} {moved : Lease.Holding Ticks}
    (valid : Models configuration jobId cluster item) (sound : Sound cluster)
    (found : cluster.nodes[index]? = some node) (included : cluster.locks ⊆ locks)
    (distinct : (locks.map Prod.fst).Nodup) (owned : (lock, index) ∈ locks)
    (shown : item.status ≠ .hidden) (record : SameRecord next item)
    (holdings : next.holdings = Function.update item.holdings lock (some moved))
    (grown : node.engine.taken <+: changed.engine.taken)
    (pending : ∀ claim ∈ changed.claimed, claim.1 = lock ∧
        moved = { deadline := claim.2 + configuration.lockTimeout } ∨
      claim.1 ≠ lock ∧ claim ∈ node.claimed)
    (lease : ∀ (ticket : Nat) (fetched : Fetched CliType Value),
      changed.engine.taken[ticket]? = some fetched → fetched.job.jobId = jobId →
      fetched.lockGuid = lock ∧ LeaseModel configuration changed ticket fetched item.limit moved ∨
      fetched.lockGuid ≠ lock ∧ node.engine.taken[ticket]? = some fetched ∧
        SameTicket changed node ticket)
    (busy : moved.progress ≠ .idle → ∃ (ticket : Nat) (fetched : Fetched CliType Value),
      node.engine.taken[ticket]? = some fetched ∧ fetched.job.jobId = jobId ∧
        fetched.lockGuid = lock)
    (executions : next.executions =
      (({ cluster with locks }.update index changed).executionsOf jobId).length) :
    Models configuration jobId ({ cluster with locks }.update index changed) next := by
  have untouched {other : Guid} (different : other ≠ lock) :
      next.holdings other = item.holdings other := by
    rw [holdings, Function.update_of_ne different]
  have here : next.holdings lock = some moved := by
    rw [holdings, Function.update_self]
  refine valid.process sound found included distinct record (fun other foreign => ?_)
    (fun other present => ?_) (fun hidden => absurd hidden shown) ?_ ?_ ?_ executions
  · exact untouched fun same => foreign (same ▸ owned)
  · by_cases same : other = lock
    · simp [same, here]
    · rwa [untouched same]
  · intro claim claimed holding present
    rcases pending claim claimed with ⟨same, fresh⟩ | ⟨different, before⟩
    · rw [same, here] at present
      exact (Option.some.inj present).symm.trans fresh
    · rw [untouched different] at present
      exact valid.pending index node found claim before holding present
  · intro ticket fetched taken own
    rcases lease ticket fetched taken own with ⟨same, model⟩ | ⟨different, before, same⟩
    · exact ⟨moved, same ▸ here, model⟩
    · obtain ⟨holding, held, model⟩ := valid.lease index node ticket fetched ⟨found, before, own⟩
      rw [untouched different]
      exact ⟨holding, held, same.lease model⟩
  · intro other holding mine present working
    have copy : ∃ (ticket : Nat) (fetched : Fetched CliType Value),
        node.engine.taken[ticket]? = some fetched ∧ fetched.job.jobId = jobId ∧
          fetched.lockGuid = other := by
      by_cases same : other = lock
      · subst same
        rw [here] at present
        exact busy (Option.some.inj present ▸ working)
      · rw [untouched same] at present
        exact valid.copy_of_busy sound found included distinct mine present working
    obtain ⟨ticket, fetched, taken, own⟩ := copy
    obtain ⟨inside, same⟩ := List.getElem?_eq_some_iff.mp taken
    exact ⟨ticket, fetched, same ▸ List.prefix_iff_getElem?.mp grown ticket inside, own⟩

theorem Models.deed {holding moved : Lease.Holding Ticks}
    (valid : Models configuration jobId cluster item) (sound : Sound cluster)
    (took : cluster.Took jobId index node ticket fetched)
    (held : item.holdings fetched.lockGuid = some holding)
    (taken : changed.engine.taken = node.engine.taken) (claimed : changed.claimed = node.claimed)
    (record : SameRecord next item)
    (holdings : next.holdings = Function.update item.holdings fetched.lockGuid (some moved))
    (others : ∀ other, other ≠ ticket → SameTicket changed node other)
    (model : LeaseModel configuration changed ticket fetched item.limit moved)
    (executions : next.executions = ((cluster.update index changed).executionsOf jobId).length) :
    Models configuration jobId (cluster.update index changed) next := by
  have shown := valid.shown_of_held held
  refine valid.hold sound took.found (List.Subset.refl _) sound.locks (took.owned sound) shown
    record holdings (taken ▸ List.prefix_rfl) (fun claim pending => ?_) ?_
    (fun _ => ⟨ticket, fetched, took.taken, took.same, rfl⟩) executions
  · rw [claimed] at pending
    have unread := ((sound.node index node took.found).claimed claim pending).2 fetched
      (List.mem_of_getElem? took.taken)
    exact .inr ⟨unread.symm, pending⟩
  · intro other fetches present same
    rw [taken] at present
    have takes : cluster.Took jobId index node other fetches := ⟨took.found, present, same⟩
    by_cases equal : fetches.lockGuid = fetched.lockGuid
    · obtain rfl := (takes.unique took sound equal).2
      obtain rfl : fetched = fetches := Option.some.inj (took.taken.symm.trans present)
      exact .inl ⟨rfl, model⟩
    · refine .inr ⟨equal, present, others other ?_⟩
      rintro rfl
      exact equal (congrArg Fetched.lockGuid (Option.some.inj (present.symm.trans took.taken)))

/-- The cluster with one engine replaced. -/
def withEngine (cluster : Cluster CliType Value) (index : Nat) (node : Node CliType Value)
    (engine : Engine (Fetched CliType Value)) : Cluster CliType Value :=
  cluster.update index { node with engine }

private theorem executions_more {engine : Engine (Fetched CliType Value)}
    {request : ExecuteJobRequest (Fetched CliType Value)}
    (found : cluster.nodes[index]? = some node)
    (more : ({ node with engine } : Node CliType Value).executionsOf jobId =
      node.executionsOf jobId ++ [request]) :
    ((cluster.withEngine index node engine).executionsOf jobId).length =
      (cluster.executionsOf jobId).length + 1 := by
  have gained : (({ node with engine } : Node CliType Value).executionsOf jobId).Perm
      (request :: node.executionsOf jobId) := more ▸ List.perm_append_singleton request _
  rw [executionsOf_eq, executionsOf_eq]
  exact (flatMap_set_gain (fun node => node.executionsOf jobId) found gained).length_eq

private theorem Models.moved {engine : Engine (Fetched CliType Value)} {reached : Stage}
    {holding : Lease.Holding Ticks} (valid : Models configuration jobId cluster item)
    (sound : Sound cluster) (took : cluster.Took jobId index node ticket fetched)
    (held : item.holdings fetched.lockGuid = some holding)
    (model : LeaseModel configuration node ticket fetched item.limit holding)
    (taken : engine.taken = node.engine.taken)
    (stage : engine.stage = fun other => if other = ticket then reached else node.engine.stage other)
    (record : SameRecord next item)
    (holdings : next.holdings = Function.update item.holdings fetched.lockGuid
      (some { holding with progress := reached.progress }))
    (executions : next.executions =
      ((cluster.withEngine index node engine).executionsOf jobId).length) :
    Models configuration jobId (cluster.withEngine index node engine) next := by
  refine valid.deed sound took held taken rfl record holdings (fun other different => ?_)
    ⟨model.deadline, model.seen, model.limit, ?_, model.startedAt, model.closed⟩ executions
  · exact ⟨by simp only [stage, different, ↓reduceIte], rfl, rfl⟩
  · simp only [stage, ↓reduceIte]

private theorem Models.still {engine : Engine (Fetched CliType Value)}
    (valid : Models configuration jobId cluster item) (sound : Sound cluster)
    (found : cluster.nodes[index]? = some node) (unread : engine.taken = node.engine.taken)
    (progress : ∀ (ticket : Nat) (fetched : Fetched CliType Value),
      node.engine.taken[ticket]? = some fetched → fetched.job.jobId = jobId →
      (engine.stage ticket).progress = (node.engine.stage ticket).progress)
    (began : ({ node with engine } : Node CliType Value).executionsOf jobId =
      node.executionsOf jobId) :
    Models configuration jobId (cluster.withEngine index node engine) item := by
  have tickets : SameTickets jobId { node with engine } node := by
    refine ⟨fun ticket fetched taken same => ?_, fun ticket fetched taken => unread ▸ taken, began⟩
    have before : node.engine.taken[ticket]? = some fetched := unread ▸ taken
    exact ⟨before, progress ticket fetched before same, rfl, rfl⟩
  exact valid.steady sound found (List.Subset.refl _) sound.locks tickets
    (valid.pending index node found)

section Attempt

variable {engine : Engine (Fetched CliType Value)} {holding : Lease.Holding Ticks}

private theorem unclosed_of_stage (valid : Models configuration jobId cluster item)
    (sound : Sound cluster) (took : cluster.Took jobId index node ticket fetched)
    (held : item.holdings fetched.lockGuid = some holding)
    (missing : node.engine.stage ticket ≠ .missing)
    (unhandled : (node.engine.stage ticket).isHandled = false) : holding.closed = false := by
  obtain ⟨own, present, model⟩ := valid.lease index node ticket fetched took
  obtain rfl : own = holding := Option.some.inj (present.symm.trans held)
  exact model.closed.trans ((sound.node index node took.found).closed_unhandled missing unhandled)

private theorem Models.handed (valid : Models configuration jobId cluster item)
    (sound : Sound cluster) (took : cluster.Took jobId index node ticket fetched)
    (before : node.engine.stage ticket = .fetched) (taken : engine.taken = node.engine.taken)
    (stage : engine.stage = fun other => if other = ticket then .waiting else node.engine.stage other)
    (began : ({ node with engine } : Node CliType Value).executionsOf jobId =
      node.executionsOf jobId) :
    ∃ next, item.step (.deed fetched.lockGuid .hand) = some next ∧
      Models configuration jobId (cluster.withEngine index node engine) next := by
  obtain ⟨holding, held, model⟩ := valid.lease index node ticket fetched took
  have idle : holding.progress = .idle := by rw [model.progress, before]; rfl
  have unclosed := unclosed_of_stage valid sound took held (by simp [before])
    (by simp [before, Stage.isHandled])
  have unstarted := model.startedAt.trans
    ((sound.node index node took.found).inProgressAt_fetched before)
  refine ⟨item.hold fetched.lockGuid { holding with progress := .handed }, ?_, ?_⟩
  · simp [Lease.Item.step, Lease.Item.act, held, idle, unclosed, unstarted]
  · exact valid.moved sound took held model taken stage ⟨rfl, rfl, rfl, rfl, rfl, rfl⟩ rfl
      (valid.executions.trans (executionsOf_update took.found began).symm)

private theorem Models.begun (valid : Models configuration jobId cluster item)
    (sound : Sound cluster) (took : cluster.Took jobId index node ticket fetched)
    (before : node.engine.stage ticket = .waiting) (taken : engine.taken = node.engine.taken)
    (stage : engine.stage = fun other =>
      if other = ticket then .executing else node.engine.stage other)
    (began : engine.began = node.engine.began ++ [⟨fetched, ticket⟩]) :
    ∃ next, item.step (.deed fetched.lockGuid .begin) = some next ∧
      Models configuration jobId (cluster.withEngine index node engine) next := by
  obtain ⟨holding, held, model⟩ := valid.lease index node ticket fetched took
  have handed : holding.progress = .handed := by rw [model.progress, before]; rfl
  have unclosed := unclosed_of_stage valid sound took held (by simp [before])
    (by simp [before, Stage.isHandled])
  refine ⟨({ item with executions := item.executions + 1 } : Lease.Item Guid Ticks).hold
    fetched.lockGuid { holding with progress := .running }, ?_, ?_⟩
  · simp [Lease.Item.step, Lease.Item.act, held, handed, unclosed]
  · refine valid.moved sound took held model taken stage ⟨rfl, rfl, rfl, rfl, rfl, rfl⟩ rfl ?_
    have more : ({ node with engine } : Node CliType Value).executionsOf jobId =
        node.executionsOf jobId ++ [⟨fetched, ticket⟩] := by
      simp [Node.executionsOf, began, took.same]
    exact (congrArg (· + 1) valid.executions).trans (executions_more took.found more).symm

private theorem Models.ended (valid : Models configuration jobId cluster item)
    (sound : Sound cluster) (took : cluster.Took jobId index node ticket fetched)
    (before : node.engine.stage ticket = .executing) (taken : engine.taken = node.engine.taken)
    {outcome : Outcome} (stage : engine.stage = fun other =>
      if other = ticket then .executed outcome else node.engine.stage other)
    (began : ({ node with engine } : Node CliType Value).executionsOf jobId =
      node.executionsOf jobId) :
    ∃ next, item.step (.deed fetched.lockGuid .finish) = some next ∧
      Models configuration jobId (cluster.withEngine index node engine) next := by
  obtain ⟨holding, held, model⟩ := valid.lease index node ticket fetched took
  have running : holding.progress = .running := by rw [model.progress, before]; rfl
  have unclosed := unclosed_of_stage valid sound took held (by simp [before])
    (by simp [before, Stage.isHandled])
  refine ⟨item.hold fetched.lockGuid { holding with progress := .ended }, ?_, ?_⟩
  · simp [Lease.Item.step, Lease.Item.act, held, running, unclosed]
  · exact valid.moved sound took held model taken stage ⟨rfl, rfl, rfl, rfl, rfl, rfl⟩ rfl
      (valid.executions.trans (executionsOf_update took.found began).symm)

end Attempt

/-- A step of an engine that brings no batch is a step of at most one lease. -/
theorem Models.advance {engine : Engine (Fetched CliType Value)}
    {action : Akka.Action (Fetched CliType Value)} (valid : Models configuration jobId cluster item)
    (sound : Sound cluster) (found : cluster.nodes[index]? = some node)
    (advance : Advance node.engine action engine) (unread : engine.taken = node.engine.taken) :
    Models configuration jobId (cluster.withEngine index node engine) item ∨
      ∃ lock deed next, Lease.Deed.reports deed = false ∧
        item.step (.deed lock deed) = some next ∧
        Models configuration jobId (cluster.withEngine index node engine) next := by
  cases advance with
  | still taken stage began =>
    refine .inl (valid.still sound found unread (fun ticket _ _ _ => by rw [stage]) ?_)
    simp only [Node.executionsOf, began]
  | delivered batch reply taken stage began =>
    refine .inl (valid.still sound found unread (fun ticket _ _ _ => by rw [stage]) ?_)
    simp only [Node.executionsOf, began]
  | moved ticket fetched reached known leads taken stage began =>
    have unbegun (ended : reached ≠ .executing) :
        ({ node with engine } : Node CliType Value).executionsOf jobId = node.executionsOf jobId := by
      simp only [Node.executionsOf, began, ended, ↓reduceIte, List.append_nil]
    have quiet (level : reached.progress = (node.engine.stage ticket).progress)
        (ended : reached ≠ .executing) :
        Models configuration jobId (cluster.withEngine index node engine) item := by
      refine valid.still sound found unread (fun other _ _ _ => ?_) (unbegun ended)
      by_cases same : other = ticket
      · simp only [stage, same, ↓reduceIte, level]
      · simp only [stage, same, ↓reduceIte]
    by_cases same : fetched.job.jobId = jobId
    · have took : cluster.Took jobId index node ticket fetched := ⟨found, known, same⟩
      generalize before : node.engine.stage ticket = earlier at leads
      cases leads with
      | missing => exact .inl (quiet (by rw [before]; rfl) (by simp))
      | handled outcome now => exact .inl (quiet (by rw [before]; rfl) (by simp))
      | dispatched =>
        exact .inr ⟨_, _, (valid.handed sound took before taken stage (unbegun (by simp))).imp
          fun _ => .intro rfl⟩
      | started =>
        exact .inr ⟨_, _, (valid.begun sound took before taken stage began).imp
          fun _ => .intro rfl⟩
      | finished outcome =>
        exact .inr ⟨_, _, (valid.ended sound took before taken stage (unbegun (by simp))).imp
          fun _ => .intro rfl⟩
    · refine .inl (valid.still sound found unread (fun other copy present own => ?_) ?_)
      · have different : other ≠ ticket := by
          rintro rfl
          obtain rfl : fetched = copy := Option.some.inj (known.symm.trans present)
          exact same own
        simp only [stage, different, ↓reduceIte]
      · simp only [Node.executionsOf, began, List.filter_append]
        split <;> simp [same]

end Cluster

end OddJob
