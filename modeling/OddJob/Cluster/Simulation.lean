import OddJob.Cluster.Refinement

/-! A step of the cluster is a step of the record of a job, or goes unnoticed by it:
the clock, the adders, the engines and the two statements of a fetch. -/

namespace OddJob.Cluster

open Akka Sql Linq Transition

variable {Key CliType Value : Type} {configuration : Configuration Key}
  {cluster after : Cluster CliType Value} {jobId : Guid} {item : Lease.Item Guid Ticks}
  {index : Nat} {node : Node CliType Value}

/-- A step of the cluster is matched by the record. Where it is a report, the record still
has the lock whenever the cluster's statement finds it. -/
inductive Follows (configuration : Configuration Key) (jobId : Guid)
    (cluster : Cluster CliType Value) (action : ClusterAction CliType Value)
    (after : Cluster CliType Value) (item : Lease.Item Guid Ticks) : Prop where
  | unnoticed (model : Models configuration jobId after item)
  | matched (step : Lease.Action Guid Ticks) (next : Lease.Item Guid Ticks)
      (taken : item.step step = some next) (model : Models configuration jobId after next)
      (owned : Owned cluster action → Lease.Owned item step)

theorem Models.waited {later : Ticks} (valid : Models configuration jobId cluster item)
    (ordered : cluster.now ≤ later) :
    Follows configuration jobId cluster (.wait later) { cluster with now := later } item := by
  refine .matched (.wait later) { item with now := later } ?_ ?_ (fun _ _ _ none => by cases none)
  · simp [Lease.Item.step, valid.now, ordered]
  · constructor
    · rfl
    · intro row member same
      obtain ⟨status, holder, deadline, attempts, limit⟩ := valid.row row member same
      exact ⟨status, holder, deadline, attempts, limit⟩
    · exact valid.absent
    · exact valid.hidden
    · exact valid.owner
    · exact valid.known
    · exact valid.pending
    · intro index node ticket fetched took
      exact valid.lease index node ticket fetched ⟨took.found, took.taken, took.same⟩
    · intro lock holding found busy
      obtain ⟨index, node, ticket, fetched, took, own⟩ := valid.genuine lock holding found busy
      exact ⟨index, node, ticket, fetched, ⟨took.found, took.taken, took.same⟩, own⟩
    · exact valid.executions

theorem Models.elsewhere {store : Store} (valid : Models configuration jobId cluster item)
    (row : ∀ row ∈ store.tables.queue, row.jobGuid = jobId →
      row ∈ cluster.store.tables.queue)
    (absent : (∀ row ∈ store.tables.queue, row.jobGuid ≠ jobId) →
      ∀ row ∈ cluster.store.tables.queue, row.jobGuid ≠ jobId) :
    Models configuration jobId { cluster with store } item :=
  valid.record rfl rfl rfl (fun q member same => valid.row q (row q member same) same)
    (fun missing => ⟨absent missing, rfl⟩) id valid.owner (.inl rfl)

theorem Models.elsewhere_update {store : Store} {selected : SqlCommonDbOddJobMetaData → Bool}
    {set : SqlCommonDbOddJobMetaData → SqlCommonDbOddJobMetaData}
    (valid : Models configuration jobId cluster item)
    (queue : store.tables.queue = updateWhere selected set cluster.store.tables.queue)
    (guid : ∀ row, (set row).jobGuid = row.jobGuid)
    (spared : ∀ row ∈ cluster.store.tables.queue, row.jobGuid = jobId → selected row = false) :
    Models configuration jobId { cluster with store } item := by
  apply valid.elsewhere
  · intro row member same
    rw [queue] at member
    obtain ⟨old, present, rfl⟩ := mem_updateWhere.mp member
    have own : old.jobGuid = jobId := by
      by_cases chosen : selected old = true <;> simpa [chosen, guid] using same
    simpa [spared old present own] using present
  · intro missing row member same
    have kept : row ∈ store.tables.queue := by
      rw [queue, mem_updateWhere]
      exact ⟨row, member, by simp [spared row member same]⟩
    exact missing row kept same

theorem Models.inserted {jobData : SerializableOddJob}
    (valid : Models configuration jobId cluster item) (sound : Sound cluster)
    (fresh : cluster.store.knows jobData.jobId = false) :
    Models configuration jobId
      { cluster with store := cluster.store.insert jobData cluster.now } item := by
  have unknown (row : SqlCommonDbOddJobMetaData) (member : row ∈ cluster.store.tables.queue) :
      row.jobGuid ≠ jobData.jobId := by
    intro same
    obtain ⟨insertion, known, _, guid⟩ := sound.store.exists_insertion member
    rw [Store.knows_iff.mpr ⟨insertion, known, guid.trans same⟩] at fresh
    cases fresh
  refine valid.record rfl rfl rfl (fun row member same => ?_) (fun missing => ?_) id valid.owner
    (.inl rfl)
  · rcases List.mem_append.mp member with older | newer
    · exact valid.row row older same
    · obtain rfl := List.mem_singleton.mp newer
      obtain rfl : jobData.jobId = jobId := same
      obtain ⟨hidden, attempts, holder, deadline⟩ := valid.absent unknown
      exact ⟨hidden, holder, deadline, attempts, fun shown => absurd hidden shown⟩
  · exact ⟨fun row member => missing row (List.mem_append_left _ member), rfl⟩

theorem Models.row_of_shown (valid : Models configuration jobId cluster item)
    (shown : item.status ≠ .hidden) :
    ∃ row ∈ cluster.store.tables.queue, row.jobGuid = jobId ∧ RowModel configuration row item := by
  by_contra none
  refine shown (valid.absent fun row member same => none ?_).1
  exact ⟨row, member, same, valid.row row member same⟩

theorem Models.rewritten {store : Store} {selected : SqlCommonDbOddJobMetaData → Bool}
    {set : SqlCommonDbOddJobMetaData → SqlCommonDbOddJobMetaData}
    {row : SqlCommonDbOddJobMetaData} {next : Lease.Item Guid Ticks}
    (valid : Models configuration jobId cluster item)
    (distinct : (cluster.store.tables.queue.map SqlCommonDbOddJobMetaData.jobGuid).Nodup)
    (queue : store.tables.queue = updateWhere selected set cluster.store.tables.queue)
    (guid : ∀ row, (set row).jobGuid = row.jobGuid)
    (member : row ∈ cluster.store.tables.queue) (own : row.jobGuid = jobId)
    (chosen : selected row = true) (model : RowModel configuration (set row) next)
    (now : next.now = item.now) (holdings : next.holdings = item.holdings)
    (executions : next.executions = item.executions) (shown : next.status ≠ .hidden)
    (owner : ∀ lock, next.holder = some lock → item.holdings lock ≠ none)
    (limit : next.limit = item.limit ∨ item.status = .hidden) :
    Models configuration jobId { cluster with store } next := by
  have guids (old : SqlCommonDbOddJobMetaData) :
      (if selected old = true then set old else old).jobGuid = old.jobGuid := by
    split <;> simp [guid]
  refine valid.record now holdings executions (fun changed stored same => ?_) (fun missing => ?_)
    (fun hidden => absurd hidden shown) owner limit
  · rw [queue] at stored
    obtain ⟨old, kept, rfl⟩ := mem_updateWhere.mp stored
    obtain rfl : old = row := List.inj_on_of_nodup_map distinct kept member
      ((guids old).symm.trans (same.trans own.symm))
    rwa [if_pos chosen]
  · have stored : (if selected row = true then set row else row) ∈ store.tables.queue := by
      rw [queue, mem_updateWhere]
      exact ⟨row, member, rfl⟩
    exact absurd ((guids row).trans own) (missing _ stored)

private theorem queue_proceed {store : Store} {insertion : Insertion}
    (point : insertion.point = .genericsCopied) : (store.proceed insertion).tables.queue =
      updateWhere (fun q => q.id = insertion.insertedId) (fun q => { q with status := .new })
        store.tables.queue := by
  simp only [Store.proceed, point, Tables.publish]

theorem Models.published {insertion : Insertion}
    (valid : Models configuration jobId cluster item) (sound : Sound cluster)
    (member : insertion ∈ cluster.store.insertions) (point : insertion.point = .genericsCopied)
    (own : insertion.jobData.jobId = jobId) (action : ClusterAction CliType Value) :
    Follows configuration jobId cluster action
      { cluster with store := cluster.store.proceed insertion } item := by
  obtain ⟨row, present, id, guid⟩ := sound.store.exists_row member
  obtain ⟨inserting, unlocked⟩ :=
    (sound.store.hidden insertion member (by simp [point])).2 row present guid
  have model := valid.row row present (guid.trans own)
  have hidden : item.status = .hidden := by rw [model.status, inserting]; rfl
  refine .matched (.publish row.maxRetries) { item with status := .fresh, limit := row.maxRetries }
    (by simp [Lease.Item.step, hidden]) ?_ (fun _ _ _ none => by cases none)
  exact valid.rewritten sound.store.rowGuids (queue_proceed point) (fun _ => rfl) present
    (guid.trans own) (by simp [id])
    ⟨rfl, model.holder, model.deadline, model.attempts, fun _ => rfl⟩ rfl rfl rfl (by simp) valid.owner (.inr hidden)

theorem Models.proceeded {insertion : Insertion}
    (valid : Models configuration jobId cluster item) (sound : Sound cluster)
    (member : insertion ∈ cluster.store.insertions) (action : ClusterAction CliType Value) :
    Follows configuration jobId cluster action
      { cluster with store := cluster.store.proceed insertion } item := by
  have unmoved (queue : (cluster.store.proceed insertion).tables.queue =
      cluster.store.tables.queue) : Follows configuration jobId cluster action
        { cluster with store := cluster.store.proceed insertion } item := by
    refine .unnoticed (valid.elsewhere (fun row kept _ => ?_) fun missing row kept => ?_)
    · rwa [queue] at kept
    · exact missing row (by rwa [queue])
  cases point : insertion.point with
  | inserted => exact unmoved (by simp [Store.proceed, point])
  | paramsCopied => exact unmoved (by simp [Store.proceed, point])
  | published => exact unmoved (by simp [Store.proceed, point])
  | genericsCopied =>
    by_cases own : insertion.jobData.jobId = jobId
    · exact valid.published sound member point own action
    · refine .unnoticed (valid.elsewhere_update (queue_proceed point) (fun _ => rfl)
        fun row stored same => ?_)
      rw [decide_eq_false_iff_not, sound.store.id_iff_guid member stored]
      exact fun guid => own (guid.symm.trans same)

theorem sameTicket_of_engine {changed : Node CliType Value} {ticket : Nat}
    (stage : changed.engine.stage = node.engine.stage) (applied : changed.applied = node.applied) :
    SameTicket changed node ticket where
  progress := by rw [stage]
  startedAt := by rw [Node.inProgressAt, Node.inProgressAt, applied]
  closed := by rw [Node.closed, Node.closed, applied]

theorem sameTickets_of_engine {changed : Node CliType Value}
    (taken : changed.engine.taken = node.engine.taken)
    (stage : changed.engine.stage = node.engine.stage)
    (began : changed.engine.began = node.engine.began) (applied : changed.applied = node.applied) :
    SameTickets jobId changed node where
  back ticket fetched found _ := ⟨taken ▸ found, sameTicket_of_engine stage applied⟩
  forth ticket fetched found := taken ▸ found
  began := by rw [Node.executionsOf, began]; rfl

theorem Models.quiet {changed : Node CliType Value}
    (valid : Models configuration jobId cluster item) (sound : Sound cluster)
    (found : cluster.nodes[index]? = some node)
    (taken : changed.engine.taken = node.engine.taken)
    (stage : changed.engine.stage = node.engine.stage)
    (began : changed.engine.began = node.engine.began) (applied : changed.applied = node.applied)
    (claimed : ∀ claim ∈ changed.claimed, claim ∈ node.claimed) :
    Models configuration jobId (cluster.update index changed) item :=
  valid.steady sound found (List.Subset.refl _) sound.locks
    (sameTickets_of_engine taken stage began applied) fun claim pending =>
      valid.pending index node found claim (claimed claim pending)

theorem Models.acted {engine : Engine (Fetched CliType Value)}
    {action : Akka.Action (Fetched CliType Value)}
    (valid : Models configuration jobId cluster item) (sound : Sound cluster)
    (found : cluster.nodes[index]? = some node) (inside : node.runsNoStatement action = true)
    (stepped : node.engine.step action = some engine) :
    Follows configuration jobId cluster (.act index action)
      (cluster.update index { node with engine }) item := by
  have advance := (sound.node index node found).advance stepped
  have unread : engine.taken = node.engine.taken := by
    rcases advance with ⟨same, _, _⟩ | ⟨batch, reply, _, _, _⟩ | ⟨_, _, _, _, _, same, _, _⟩
    · exact same
    · rw [reply] at inside
      cases inside
    · exact same
  rcases valid.advance sound found advance unread with model | ⟨lock, deed, next, silent, taken, model⟩
  · exact .unnoticed model
  · refine .matched (.deed lock deed) next taken model fun _ other others same reports => ?_
    cases same
    rw [silent] at reports
    cases reports

private theorem Models.held {lockGuid : Guid} {deadline : Ticks}
    (valid : Models configuration jobId cluster item) (sound : Sound cluster)
    (found : cluster.nodes[index]? = some node) (unused : lockGuid ∉ cluster.locks.map Prod.fst)
    (locks : ((cluster.locks ++ [(lockGuid, index)]).map Prod.fst).Nodup)
    (shown : item.status ≠ .hidden)
    (same : deadline = cluster.now + configuration.lockTimeout) :
    Models configuration jobId
      ({ cluster with locks := cluster.locks ++ [(lockGuid, index)] }.update index
        { node with claimed := some (lockGuid, cluster.now) })
      (item.hold lockGuid { deadline }) := by
  refine valid.hold sound found (List.subset_append_left _ _) locks (by simp) shown
    ⟨rfl, rfl, rfl, rfl, rfl, rfl⟩ rfl List.prefix_rfl (fun claim pending => ?_)
    (fun ticket fetched taken own => .inr ⟨?_, taken, sameTicket_of_engine rfl rfl⟩)
    (fun busy => absurd rfl busy) ?_
  · cases pending
    exact .inl ⟨rfl, by rw [same]⟩
  · rintro rfl
    have owned := ((sound.node index node found).fetched fetched (List.mem_of_getElem? taken)).2
    exact unused (List.mem_map.mpr ⟨_, owned, rfl⟩)
  · have unmoved : ({ node with claimed := some (lockGuid, cluster.now) } :
        Node CliType Value).executionsOf jobId = node.executionsOf jobId := rfl
    exact valid.executions.trans (executionsOf_update found unmoved).symm

/-- A row that a fetch may claim is a record that may be claimed. -/
theorem RowModel.claimable {row : SqlCommonDbOddJobMetaData} {request : GetJobs} {lockGuid : Guid}
    {now : Ticks} (model : RowModel configuration row item)
    (eligible : (Node.call configuration request lockGuid now).eligible row = true) :
    item.status.claimable = true ∧ item.deadline.all (· < now) = true := by
  simp only [Claim.eligible, Sql.eligible, Bool.and_eq_true, Bool.or_eq_true,
    decide_eq_true_eq] at eligible
  obtain ⟨⟨_, status⟩, unlocked⟩ := eligible
  constructor
  · rw [model.status]
    rcases status with new | ⟨⟨retry, _⟩, _⟩
    · rw [new]
      rfl
    · rw [retry]
      rfl
  · rw [model.deadline]
    cases claimed : row.lockClaimTime with
    | none => rfl
    | some lockClaimTime =>
      simp only [claimed, Option.isNone_some, Bool.false_eq_true, false_or, Option.any_some,
        Claim.lockClaimTimeoutThreshold, Node.call] at unlocked
      have old := of_decide_eq_true unlocked
      simp only [Option.map_some, Option.all_some, decide_eq_true_eq, Configuration.lockTimeout]
      exact Int.add_lt_of_lt_sub_right old

private theorem leaseModel_untaken {changed : Node CliType Value} {ticket : Nat}
    {fetched : Fetched CliType Value} {holding : Lease.Holding Ticks} {limit : Int}
    (sound : Sound cluster) (found : cluster.nodes[index]? = some node)
    (bound : node.engine.taken.length ≤ ticket)
    (stage : changed.engine.stage = node.engine.stage) (applied : changed.applied = node.applied)
    (deadline : holding.deadline = fetched.claimedAt + configuration.lockTimeout)
    (seen : holding.seen = some fetched.job.retryParameters.retryCount)
    (same : fetched.job.retryParameters.maxRetries = limit) (progress : holding.progress = .idle)
    (startedAt : holding.startedAt = none) (closed : holding.closed = false) :
    LeaseModel configuration changed ticket fetched limit holding := by
  have here := sound.node index node found
  have untouched := here.untaken bound
  have unmarked := here.inProgressAt_fetched untouched
  have unclosed : node.closed ticket = false :=
    here.closed_unhandled (by simp [untouched]) (by simp [untouched, Stage.isHandled])
  refine ⟨deadline, seen, same, ?_, ?_, ?_⟩
  · rw [progress, stage, untouched]
    rfl
  · rw [startedAt, ← unmarked, Node.inProgressAt, Node.inProgressAt, applied]
  · rw [closed, ← unclosed, Node.closed, Node.closed, applied]

private theorem Models.read {lockGuid : Guid} {claimedAt : Ticks} {rows : List SqlQueueRowSet}
    {engine : Engine (Fetched CliType Value)} {batch : List (Fetched CliType Value)}
    {copy : Fetched CliType Value}
    (valid : Models configuration jobId cluster item) (sound : Sound cluster)
    (found : cluster.nodes[index]? = some node)
    (claimed : node.claimed = some (lockGuid, claimedAt))
    (batched : Batch cluster.store rows lockGuid claimedAt batch)
    (taken : engine.taken = node.engine.taken ++ batch) (stage : engine.stage = node.engine.stage)
    (began : engine.began = node.engine.began) (listed : copy ∈ batch)
    (own : copy.job.jobId = jobId) (action : ClusterAction CliType Value) :
    Follows configuration jobId cluster action
      (cluster.update index { node with engine, claimed := none }) item := by
  have here := sound.node index node found
  obtain ⟨owned, unread⟩ := here.claimed (lockGuid, claimedAt) claimed
  obtain ⟨row, stored, locked, guid, _⟩ := batched.row copy listed
  have model := valid.row row stored (guid.trans own)
  have holder : item.holder = some lockGuid := model.holder.trans locked
  have present := valid.owner lockGuid holder
  obtain ⟨holding, held⟩ := Option.ne_none_iff_exists'.mp present
  have fresh := valid.pending index node found (lockGuid, claimedAt) claimed holding held
  have shown : item.status ≠ .hidden := fun hidden => present (valid.hidden hidden lockGuid)
  let read : Lease.Holding Ticks := { holding with seen := some item.attempts }
  refine .matched (.deed lockGuid .read) (item.hold lockGuid read) ?_ ?_
    (fun _ lock deed same reports => by cases same; cases reports)
  · subst fresh
    simp [Lease.Item.step, Lease.Item.act, held, holder, read]
  · refine valid.hold sound found (List.Subset.refl _) sound.locks owned shown
      ⟨rfl, rfl, rfl, rfl, rfl, rfl⟩ rfl (taken ▸ List.prefix_append _ _)
      (fun claim none => by cases none) (fun ticket fetched known same => ?_)
      (fun busy => absurd (by simp [read, fresh]) busy) ?_
    · simp only [taken, List.getElem?_append] at known
      split at known
      · exact .inr ⟨unread fetched (List.mem_of_getElem? known), known,
          sameTicket_of_engine stage rfl⟩
      · rename_i beyond
        have new := List.mem_of_getElem? known
        obtain ⟨lock, time⟩ := batched.lock fetched new
        obtain ⟨other, also, _, named, retries, _⟩ := batched.row fetched new
        obtain rfl : row = other := List.inj_on_of_nodup_map sound.store.rowGuids stored also
          (guid.trans (own.trans (same.symm.trans named.symm)))
        refine .inl ⟨lock, leaseModel_untaken sound found (Nat.le_of_not_lt beyond) stage rfl ?_ ?_
          ?_ ?_ ?_ ?_⟩
        · simp [read, fresh, time]
        · simp [read, retries, retryParametersOf, model.attempts]
        · simp [retries, retryParametersOf, model.limit shown]
        · simp [read, fresh]
        · simp [read, fresh]
        · simp [read, fresh]
    · have unmoved : ({ node with engine, claimed := none } : Node CliType Value).executionsOf
          jobId = node.executionsOf jobId := by rw [Node.executionsOf, began]; rfl
      exact valid.executions.trans (executionsOf_update found unmoved).symm

theorem Models.replied {lockGuid : Guid} {claimedAt : Ticks} {rows : List SqlQueueRowSet}
    {engine : Engine (Fetched CliType Value)} (valid : Models configuration jobId cluster item)
    (sound : Sound cluster) (found : cluster.nodes[index]? = some node)
    (claimed : node.claimed = some (lockGuid, claimedAt))
    (returned : Returns cluster.store.tables (fun q => q.lockGuid = some lockGuid) rows)
    (stepped : node.engine.step (.layerReply (node.fetch rows lockGuid claimedAt)) = some engine)
    (action : ClusterAction CliType Value) :
    Follows configuration jobId cluster action
      ({ cluster with store := cluster.store.read rows }.update index
        { node with engine, claimed := none }) item := by
  have read {next : Lease.Item Guid Ticks} (model : Models configuration jobId
      (cluster.update index { node with engine, claimed := none }) next) :
      Models configuration jobId ({ cluster with store := cluster.store.read rows }.update index
        { node with engine, claimed := none }) next :=
    model.elsewhere (fun _ kept _ => kept) fun missing => missing
  obtain ⟨stage, began, unchanged | ⟨batch, fetched, taken⟩⟩ := taken_of_layerReply stepped
  · exact .unnoticed (read (valid.quiet sound found unchanged stage began rfl fun _ none => by
      cases none))
  · have batched := batch_of_fetch sound.store returned fetched
    by_cases listed : ∃ copy ∈ batch, copy.job.jobId = jobId
    · obtain ⟨copy, member, own⟩ := listed
      rcases valid.read sound found claimed batched taken stage began member own action with
        model | ⟨step, next, stepped, model, owned⟩
      · exact .unnoticed (read model)
      · exact .matched step next stepped (read model) owned
    · refine .unnoticed (read (valid.steady sound found (List.Subset.refl _) sound.locks ?_
        fun _ none => by cases none))
      constructor
      · intro ticket copy known own
        simp only [taken, List.getElem?_append] at known
        split at known
        · exact ⟨known, sameTicket_of_engine stage rfl⟩
        · exact absurd ⟨copy, List.mem_of_getElem? known, own⟩ listed
      · intro ticket copy known
        obtain ⟨inside, same⟩ := List.getElem?_eq_some_iff.mp known
        simp only [taken]
        rw [List.getElem?_append_left inside, known]
      · simp only [Node.executionsOf, began]

variable [LinearOrder Key]

theorem Models.claimed {request : GetJobs} {lockGuid : Guid}
    {scan : List SqlCommonDbOddJobMetaData} (valid : Models configuration jobId cluster item)
    (sound : Sound cluster) (found : cluster.nodes[index]? = some node)
    (order : scan.Perm cluster.store.tables.queue) (unused : lockGuid ∉ cluster.locks.map Prod.fst)
    (locks : ((cluster.locks ++ [(lockGuid, index)]).map Prod.fst).Nodup)
    (action : ClusterAction CliType Value) :
    Follows configuration jobId cluster action ({ cluster with
      store := cluster.store.claim (Node.call configuration request lockGuid cluster.now) scan
      locks := cluster.locks ++ [(lockGuid, index)] }.update index
        { node with claimed := some (lockGuid, cluster.now) }) item := by
  let call := Node.call configuration request lockGuid cluster.now
  have fresh : item.holdings lockGuid = none := by
    by_contra present
    exact unused (valid.known lockGuid present)
  by_cases taken : ∃ row ∈ cluster.store.tables.queue, row.jobGuid = jobId ∧ call.Takes scan row
  · obtain ⟨row, member, own, takes⟩ := taken
    have model := valid.row row member own
    obtain ⟨claimable, expired⟩ :=
      model.claimable (call.eligible_of_takes order sound.store.rowIds member takes)
    have shown : item.status ≠ .hidden := by
      intro hidden
      rw [hidden] at claimable
      cases claimable
    let deadline := cluster.now + configuration.lockTimeout
    let next : Lease.Item Guid Ticks :=
      { item with holder := some lockGuid, deadline := some deadline }.hold lockGuid { deadline }
    refine .matched (.claim lockGuid deadline) next ?_ ?_ (fun _ _ _ none => by cases none)
    · rw [← valid.now] at expired
      simp [Lease.Item.step, claimable, expired, fresh, next]
    · have held := valid.held sound found unused locks shown rfl
      refine held.rewritten sound.store.rowGuids rfl (fun _ => rfl) member own takes
        ⟨model.status, rfl, rfl, model.attempts, model.limit⟩ rfl rfl rfl shown
        (fun lock same => ?_) (.inl rfl)
      obtain rfl : lockGuid = lock := Option.some.inj same
      simp
  · have steady : Models configuration jobId
        ({ cluster with locks := cluster.locks ++ [(lockGuid, index)] }.update index
          { node with claimed := some (lockGuid, cluster.now) }) item := by
      refine valid.steady sound found (List.subset_append_left _ _) locks
        (sameTickets_of_engine rfl rfl rfl rfl) fun claim pending holding present => ?_
      cases pending
      rw [fresh] at present
      cases present
    exact .unnoticed (steady.elsewhere_update rfl (fun _ => rfl) fun row member own =>
      Bool.eq_false_iff.mpr fun takes => taken ⟨row, member, own, takes⟩)

end OddJob.Cluster
