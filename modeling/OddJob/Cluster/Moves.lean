import OddJob.Cluster.System

/-! What one step of the cluster can do, said once, and what holds of every cluster
whatever the delays: its engines are engines, its store is a store, and no two
fetched jobs come from one claim of one row. -/

namespace OddJob

open Akka Sql Transition

variable {Key CliType Value : Type} [LinearOrder Key]

namespace Cluster

variable {configuration : Configuration Key} {cluster after : Cluster CliType Value}

inductive Moves (configuration : Configuration Key) (cluster : Cluster CliType Value) :
    ClusterAction CliType Value → Cluster CliType Value → Prop where
  | waited (later : Ticks) (ordered : cluster.now ≤ later) :
      Moves configuration cluster (.wait later) { cluster with now := later }
  | inserted (jobData : SerializableOddJob) (fresh : cluster.store.knows jobData.jobId = false) :
      Moves configuration cluster (.insert jobData)
        { cluster with store := cluster.store.insert jobData cluster.now }
  | proceeded (jobId : Guid) (insertion : Insertion)
      (member : insertion ∈ cluster.store.insertions) (same : insertion.jobData.jobId = jobId) :
      Moves configuration cluster (.proceed jobId)
        { cluster with store := cluster.store.proceed insertion }
  | crashed (index : Nat) (node : Node CliType Value) (found : cluster.nodes[index]? = some node) :
      Moves configuration cluster (.crash index) (cluster.update index { node with crashed := true })
  | acted (index : Nat) (node : Node CliType Value) (action : Akka.Action (Fetched CliType Value))
      (engine : Engine (Fetched CliType Value)) (found : cluster.nodes[index]? = some node)
      (inside : node.runsNoStatement action = true)
      (taken : node.engine.step action = some engine) :
      Moves configuration cluster (.act index action) (cluster.update index { node with engine })
  | claimed (index : Nat) (node : Node CliType Value) (request : GetJobs) (lockGuid : Guid)
      (scan : List SqlCommonDbOddJobMetaData) (found : cluster.nodes[index]? = some node)
      (asked : node.engine.fetching = some request) (free : node.claimed = none)
      (order : scan.Perm cluster.store.tables.queue) (unused : lockGuid ∉ cluster.locks.map Prod.fst) :
      Moves configuration cluster (.claim index lockGuid scan) ({ cluster with
        store := cluster.store.claim (Node.call configuration request lockGuid cluster.now) scan
        locks := cluster.locks ++ [(lockGuid, index)] }.update index
          { node with claimed := some (lockGuid, cluster.now) })
  | replied (index : Nat) (node : Node CliType Value) (lockGuid : Guid) (claimedAt : Ticks)
      (rows : List SqlQueueRowSet) (engine : Engine (Fetched CliType Value))
      (found : cluster.nodes[index]? = some node)
      (claimed : node.claimed = some (lockGuid, claimedAt))
      (returned : Returns cluster.store.tables (fun q => q.lockGuid = some lockGuid) rows)
      (taken : node.engine.step (.layerReply (node.fetch rows lockGuid claimedAt)) = some engine) :
      Moves configuration cluster (.reply index rows)
        ({ cluster with store := cluster.store.read rows }.update index
          { node with engine, claimed := none })
  | threw (index : Nat) (node : Node CliType Value) (engine : Engine (Fetched CliType Value))
      (found : cluster.nodes[index]? = some node)
      (taken : node.engine.step (.layerReply none) = some engine) :
      Moves configuration cluster (.fetchThrew index)
        (cluster.update index { node with engine, claimed := none })
  | applied (index : Nat) (node : Node CliType Value) (command : Command)
      (rest : List LayerMessage) (engine : Engine (Fetched CliType Value))
      (found : cluster.nodes[index]? = some node)
      (front : node.engine.layer = .command command :: rest)
      (taken : node.engine.step .layerReceive = some engine) :
      Moves configuration cluster (.command index true) ({ cluster with
        store := cluster.store.mark command.mark command.jobId cluster.now }.update index
          { node with engine, applied := node.applied ++ [(command, cluster.now)] })
  | lost (index : Nat) (node : Node CliType Value) (command : Command)
      (rest : List LayerMessage) (engine : Engine (Fetched CliType Value))
      (found : cluster.nodes[index]? = some node)
      (front : node.engine.layer = .command command :: rest)
      (taken : node.engine.step .layerReceive = some engine) :
      Moves configuration cluster (.command index false) (cluster.update index { node with engine })

omit [LinearOrder Key] in
private theorem found_of_running {index : Nat} {node : Node CliType Value}
    (running : cluster.running index = some node) : cluster.nodes[index]? = some node :=
  (Option.filter_eq_some_iff.mp running).1

theorem moves_of_step {action : ClusterAction CliType Value}
    (taken : cluster.step configuration action = some after) :
    Moves configuration cluster action after := by
  cases action with
  | wait later =>
    obtain ⟨ordered, ⟨⟩⟩ := Option.ite_none_right_eq_some.mp taken
    exact .waited later ordered
  | insert jobData =>
    obtain ⟨store, inserted, rfl⟩ := Option.map_eq_some_iff.mp taken
    obtain ⟨fresh, ⟨⟩⟩ := Option.ite_none_left_eq_some.mp inserted
    exact .inserted jobData (Bool.not_eq_true _ ▸ fresh)
  | proceed jobId =>
    obtain ⟨store, proceeded, rfl⟩ := Option.map_eq_some_iff.mp taken
    obtain ⟨insertion, found, rfl⟩ := Option.map_eq_some_iff.mp proceeded
    exact .proceeded jobId insertion (List.mem_of_find?_eq_some found)
      (by simpa using List.find?_some found)
  | crash index =>
    obtain ⟨node, running, ⟨⟩⟩ := Option.bind_eq_some_iff.mp taken
    exact .crashed index node (found_of_running running)
  | act index action =>
    obtain ⟨node, running, acted⟩ := Option.bind_eq_some_iff.mp taken
    obtain ⟨inside, stepped⟩ := Option.ite_none_right_eq_some.mp acted
    obtain ⟨engine, moved, rfl⟩ := Option.map_eq_some_iff.mp stepped
    exact .acted index node action engine (found_of_running running) inside moved
  | claim index lockGuid scan =>
    obtain ⟨node, running, claimed⟩ := Option.bind_eq_some_iff.mp taken
    simp only [stepNode] at claimed
    split at claimed
    · rename_i request asked free
      obtain ⟨⟨order, unused⟩, ⟨⟩⟩ := Option.ite_none_right_eq_some.mp claimed
      exact .claimed index node request lockGuid scan (found_of_running running) asked free order
        unused
    · cases claimed
  | reply index rows =>
    obtain ⟨node, running, replied⟩ := Option.bind_eq_some_iff.mp taken
    simp only [stepNode] at replied
    split at replied
    · rename_i lockGuid claimedAt claimed
      obtain ⟨returned, stepped⟩ := Option.ite_none_right_eq_some.mp replied
      obtain ⟨engine, moved, rfl⟩ := Option.map_eq_some_iff.mp stepped
      exact .replied index node lockGuid claimedAt rows engine (found_of_running running) claimed
        returned moved
    · cases replied
  | fetchThrew index =>
    obtain ⟨node, running, threw⟩ := Option.bind_eq_some_iff.mp taken
    obtain ⟨engine, moved, rfl⟩ := Option.map_eq_some_iff.mp threw
    exact .threw index node engine (found_of_running running) moved
  | command index reaches =>
    obtain ⟨node, running, processed⟩ := Option.bind_eq_some_iff.mp taken
    simp only [stepNode] at processed
    split at processed
    · rename_i command rest front
      obtain ⟨engine, moved, rfl⟩ := Option.map_eq_some_iff.mp processed
      cases reaches with
      | true => exact .applied index node command rest engine (found_of_running running) front moved
      | false => exact .lost index node command rest engine (found_of_running running) front moved
    · cases processed

end Cluster

/-- What holds of one process, given the jobs that were ever fetched and the locks made up. -/
structure Node.Sound (fetchedIds : List Guid) (locks : List (Guid × Nat)) (index : Nat)
    (node : Node CliType Value) : Prop where
  engine : ∃ queueName numWorkers aggressiveSweep, Reaches Engine.step anyAction
    (Engine.configured queueName numWorkers aggressiveSweep) node.engine
  applied : ∀ entry ∈ node.applied, entry.1 ∈ node.engine.processed
  fetched : ∀ fetched ∈ node.engine.taken,
    fetched.job.jobId ∈ fetchedIds ∧ (fetched.lockGuid, index) ∈ locks
  claimed : ∀ claim ∈ node.claimed, (claim.1, index) ∈ locks ∧
    ∀ fetched ∈ node.engine.taken, fetched.lockGuid ≠ claim.1
  once : ∀ (ticket other : Nat) (fetched others : Fetched CliType Value),
    node.engine.taken[ticket]? = some fetched →
    node.engine.taken[other]? = some others → fetched.lockGuid = others.lockGuid →
    fetched.job.jobId = others.job.jobId → ticket = other

namespace Node.Sound

variable {fetchedIds moreIds : List Guid} {locks moreLocks : List (Guid × Nat)} {index : Nat}
  {node : Node CliType Value}

theorem mono (valid : node.Sound fetchedIds locks index) (ids : fetchedIds ⊆ moreIds)
    (included : locks ⊆ moreLocks) : node.Sound moreIds moreLocks index where
  engine := valid.engine
  applied := valid.applied
  fetched fetched member :=
    ⟨ids (valid.fetched fetched member).1, included (valid.fetched fetched member).2⟩
  claimed claim member := ⟨included (valid.claimed claim member).1, (valid.claimed claim member).2⟩
  once := valid.once

theorem tracked (valid : node.Sound fetchedIds locks index) : Tracked node.engine := by
  obtain ⟨_, _, _, reached⟩ := valid.engine
  exact tracked_of_reaches reached

theorem told (valid : node.Sound fetchedIds locks index) : Told node.engine := by
  obtain ⟨_, _, _, reached⟩ := valid.engine
  exact told_of_reaches reached

theorem inOrder (valid : node.Sound fetchedIds locks index) : node.engine.InOrder := by
  obtain ⟨_, _, _, reached⟩ := valid.engine
  exact inOrder_of_reaches reached

/-- What a step of the engine does to the jobs it took. -/
theorem advance (valid : node.Sound fetchedIds locks index)
    {action : Akka.Action (Fetched CliType Value)} {engine : Engine (Fetched CliType Value)}
    (taken : node.engine.step action = some engine) : Advance node.engine action engine :=
  advance_of_moves valid.tracked (Akka.moves_of_step taken)

theorem step (valid : node.Sound fetchedIds locks index)
    {action : Akka.Action (Fetched CliType Value)} {engine : Engine (Fetched CliType Value)}
    (stepped : node.engine.step action = some engine) (taken : engine.taken = node.engine.taken) :
    ({ node with engine } : Node CliType Value).Sound fetchedIds locks index where
  engine := by
    obtain ⟨queueName, numWorkers, aggressiveSweep, reached⟩ := valid.engine
    exact ⟨queueName, numWorkers, aggressiveSweep, reached.next trivial stepped⟩
  applied entry member :=
    (processed_of_moves (Akka.moves_of_step stepped)).subset (valid.applied entry member)
  fetched := taken ▸ valid.fetched
  claimed := taken ▸ valid.claimed
  once := taken ▸ valid.once

end Node.Sound

/-- What `GetJobs` returned, job by job. -/
structure Batch (store : Store) (rows : List SqlQueueRowSet) (lockGuid : Guid) (claimedAt : Ticks)
    (batch : List (Fetched CliType Value)) : Prop where
  lock : ∀ fetched ∈ batch, fetched.lockGuid = lockGuid ∧ fetched.claimedAt = claimedAt
  row : ∀ fetched ∈ batch, ∃ row ∈ store.tables.queue, row.lockGuid = some lockGuid ∧
    row.jobGuid = fetched.job.jobId ∧ fetched.job.retryParameters = retryParametersOf row ∧
    row.jobGuid ∈ (store.read rows).fetched
  ids : (batch.map fun fetched => fetched.job.jobId).Nodup

theorem batch_of_fetch {store : Store} {node : Node CliType Value} {rows : List SqlQueueRowSet}
    {lockGuid : Guid} {claimedAt : Ticks} {batch : List (Fetched CliType Value)}
    (valid : store.Valid) (returned : Returns store.tables (fun q => q.lockGuid = some lockGuid) rows)
    (fetched : node.fetch rows lockGuid claimedAt = some batch) :
    Batch store rows lockGuid claimedAt batch := by
  simp only [Node.fetch] at fetched
  split at fetched
  · rename_i jobs decoded
    cases fetched
    constructor
    · intro fetched member
      obtain ⟨job, _, rfl⟩ := List.mem_map.mp member
      exact ⟨rfl, rfl⟩
    · intro fetched member
      obtain ⟨job, present, rfl⟩ := List.mem_map.mp member
      obtain ⟨row, stored, locked, first, group, whole, rfl, done⟩ :=
        exists_group_of_mem valid.rowGuids returned (mem_toList decoded present)
      obtain ⟨id, retries⟩ := node.decoder.ofGroup_ok done
      refine ⟨first.metaData, stored, of_decide_eq_true locked, id.symm, retries, ?_⟩
      have selected : first.metaData ∈ store.tables.queue.filter fun q =>
          q.lockGuid = some lockGuid := List.mem_filter.mpr ⟨stored, locked⟩
      obtain ⟨joined, member, same⟩ := exists_mem_joinQuery store.tables selected
      refine List.mem_append_right _ (List.mem_map.mpr ⟨joined, returned.mem_iff.mpr member, ?_⟩)
      rw [same]
    · rw [List.map_map]
      exact node.decoder.fetchedIds_nodup decoded
  · cases fetched

namespace Cluster

variable {configuration : Configuration Key} {cluster after : Cluster CliType Value}

structure Sound (cluster : Cluster CliType Value) : Prop where
  store : cluster.store.Valid
  locks : (cluster.locks.map Prod.fst).Nodup
  node : ∀ index (node : Node CliType Value), cluster.nodes[index]? = some node →
    node.Sound cluster.store.fetched cluster.locks index

theorem node_of_update {index other : Nat} {node others : Node CliType Value}
    (found : (cluster.update index node).nodes[other]? = some others) :
    other = index ∧ others = node ∨ other ≠ index ∧ cluster.nodes[other]? = some others := by
  by_cases same : other = index
  · subst same
    obtain ⟨inside, here⟩ := List.getElem?_eq_some_iff.mp found
    exact .inl ⟨rfl, by rw [← here]; exact List.getElem_set_self _⟩
  · rw [update, List.getElem?_set_ne (Ne.symm same)] at found
    exact .inr ⟨same, found⟩

/-- One process changes; the others see more fetched jobs and more locks at most. -/
theorem Sound.update {index : Nat} {node : Node CliType Value} (valid : Sound cluster)
    (store : after.store.Valid) (ids : cluster.store.fetched ⊆ after.store.fetched)
    (locks : (after.locks.map Prod.fst).Nodup) (included : cluster.locks ⊆ after.locks)
    (nodes : after.nodes = cluster.nodes)
    (changed : node.Sound after.store.fetched after.locks index) :
    Sound (after.update index node) := by
  refine ⟨store, locks, fun other others found => ?_⟩
  rcases node_of_update found with ⟨rfl, rfl⟩ | ⟨_, here⟩
  · exact changed
  · rw [nodes] at here
    exact (valid.node other others here).mono ids included

theorem Sound.replied {index : Nat} {node : Node CliType Value} {lockGuid : Guid}
    {claimedAt : Ticks} {rows : List SqlQueueRowSet} {engine : Engine (Fetched CliType Value)}
    (valid : Sound cluster) (found : cluster.nodes[index]? = some node)
    (claimed : node.claimed = some (lockGuid, claimedAt))
    (returned : Returns cluster.store.tables (fun q => q.lockGuid = some lockGuid) rows)
    (taken : node.engine.step (.layerReply (node.fetch rows lockGuid claimedAt)) = some engine) :
    ({ node with engine, claimed := none } : Node CliType Value).Sound
      (cluster.store.read rows).fetched cluster.locks index := by
  have here := valid.node index node found
  have more := here.mono (List.subset_append_left _ _ : _ ⊆ (cluster.store.read rows).fetched)
    (List.Subset.refl cluster.locks)
  have same (unchanged : engine.taken = node.engine.taken) :
      ({ node with engine, claimed := none } : Node CliType Value).Sound
        (cluster.store.read rows).fetched cluster.locks index :=
    { more.step taken unchanged with claimed := fun _ none => by cases none }
  rcases (taken_of_layerReply taken).2.2 with unchanged | ⟨batch, fetched, extended⟩
  · exact same unchanged
  · have batched := batch_of_fetch valid.store returned fetched
    obtain ⟨owned, unseen⟩ := here.claimed (lockGuid, claimedAt) claimed
    obtain ⟨queueName, numWorkers, aggressiveSweep, reached⟩ := here.engine
    constructor
    · exact ⟨queueName, numWorkers, aggressiveSweep, reached.next trivial taken⟩
    · exact fun entry member =>
        (processed_of_moves (Akka.moves_of_step taken)).subset (here.applied entry member)
    · intro fetched member
      rw [extended] at member
      rcases List.mem_append.mp member with older | newer
      · exact more.fetched fetched older
      · obtain ⟨row, _, _, id, _, listed⟩ := batched.row fetched newer
        exact ⟨id ▸ listed, (batched.lock fetched newer).1 ▸ owned⟩
    · intro claim none
      cases none
    · intro ticket other fetched others left right lock id
      simp only [extended, List.getElem?_append] at left right
      split at left <;> split at right
      · exact here.once ticket other fetched others left right lock id
      · have new := (batched.lock others (List.mem_of_getElem? right)).1
        exact absurd (lock.trans new) (unseen fetched (List.mem_of_getElem? left))
      · have new := (batched.lock fetched (List.mem_of_getElem? left)).1
        exact absurd (lock.symm.trans new) (unseen others (List.mem_of_getElem? right))
      · rename_i before after
        have ids : (batch.map fun fetched => fetched.job.jobId)[ticket - node.engine.taken.length]? =
            (batch.map fun fetched => fetched.job.jobId)[other - node.engine.taken.length]? := by
          simp only [List.getElem?_map, left, right, Option.map_some, id]
        have inside : ticket - node.engine.taken.length <
            (batch.map fun fetched => fetched.job.jobId).length := by
          rw [List.length_map]
          exact (List.getElem?_eq_some_iff.mp left).1
        have position := (List.getElem?_inj inside batched.ids).mp ids
        omega

theorem Sound.moves {action : ClusterAction CliType Value} (valid : Sound cluster)
    (move : Moves configuration cluster action after) : Sound after := by
  cases move with
  | waited later ordered => exact ⟨valid.store, valid.locks, valid.node⟩
  | inserted jobData fresh => exact ⟨valid.store.insert fresh, valid.locks, valid.node⟩
  | proceeded jobId insertion member same =>
    have fetched : (cluster.store.proceed insertion).fetched = cluster.store.fetched := by
      unfold Store.proceed
      split <;> rfl
    exact ⟨valid.store.proceed member, valid.locks, by rw [fetched]; exact valid.node⟩
  | crashed index node found =>
    have here := valid.node index node found
    exact valid.update valid.store (List.Subset.refl _) valid.locks (List.Subset.refl _) rfl
      { here with }
  | acted index node action engine found inside taken =>
    have here := valid.node index node found
    refine valid.update valid.store (List.Subset.refl _) valid.locks (List.Subset.refl _) rfl
      (here.step taken ?_)
    rcases here.advance taken with ⟨unchanged, _, _⟩ | ⟨batch, reply, _, _, _⟩ |
      ⟨_, _, _, _, _, unchanged, _, _⟩
    · exact unchanged
    · rw [reply] at inside
      cases inside
    · exact unchanged
  | claimed index node request lockGuid scan found asked free order unused =>
    have here := valid.node index node found
    have unknown (claim : Guid × Nat) (member : claim ∈ cluster.locks) : claim.1 ≠ lockGuid :=
      fun same => unused (List.mem_map.mpr ⟨claim, member, same⟩)
    refine valid.update (valid.store.claim order) (List.Subset.refl _) ?_
      (List.subset_append_left _ _) rfl ?_
    · simpa [List.nodup_append, valid.locks] using
        fun claim position member => unknown (claim, position) member
    · have more := here.mono (List.Subset.refl _)
        (List.subset_append_left cluster.locks [(lockGuid, index)])
      refine { more with claimed := fun claim same => ?_ }
      cases same
      refine ⟨List.mem_append_right _ List.mem_cons_self, fun fetched member => ?_⟩
      exact unknown _ (here.fetched fetched member).2
  | replied index node lockGuid claimedAt rows engine found claimed returned taken =>
    exact valid.update (valid.store.read returned) (List.subset_append_left _ _) valid.locks
      (List.Subset.refl _) rfl (valid.replied found claimed returned taken)
  | threw index node engine found taken =>
    have here := valid.node index node found
    apply valid.update valid.store (List.Subset.refl _) valid.locks (List.Subset.refl _) rfl
    refine { here.step taken ?_ with claimed := fun _ none => by cases none }
    rcases (taken_of_layerReply taken).2.2 with unchanged | ⟨batch, nothing, _⟩
    · exact unchanged
    · cases nothing
  | applied index node command rest engine found front taken =>
    have here := valid.node index node found
    obtain ⟨job, known, id, _⟩ := here.told.front here.inOrder front
    have listed : command.jobId ∈ cluster.store.fetched :=
      id ▸ (here.fetched job (List.mem_of_getElem? known)).1
    have same := processed_of_front front taken
    have moved := here.step taken (by rw [same])
    refine valid.update (valid.store.mark listed) (List.Subset.refl _) valid.locks
      (List.Subset.refl _) rfl { moved with applied := fun entry member => ?_ }
    rcases List.mem_append.mp member with older | newer
    · exact moved.applied entry older
    · rw [List.mem_singleton.mp newer, same]
      exact List.mem_append_right _ List.mem_cons_self
  | lost index node command rest engine found front taken =>
    have here := valid.node index node found
    exact valid.update valid.store (List.Subset.refl _) valid.locks (List.Subset.refl _) rfl
      (here.step taken (by rw [processed_of_front front taken]))

theorem sound_configured (now : Ticks) (settings : List (NodeSettings CliType Value)) :
    Sound (configured now settings) where
  store := Store.valid_empty
  locks := List.nodup_nil
  node index node found := by
    obtain ⟨given, _, rfl⟩ := List.mem_map.mp (List.mem_of_getElem? found)
    constructor
    · exact ⟨given.queueName, given.numWorkers, given.aggressiveSweep, .refl⟩
    · simp
    · simp [Engine.configured]
    · simp
    · simp [Engine.configured]

theorem sound_of_reaches {now : Ticks} {settings : List (NodeSettings CliType Value)}
    {allowed : Cluster CliType Value → ClusterAction CliType Value → Prop}
    (reached : Reaches (step configuration) allowed (configured now settings) cluster) :
    Sound cluster :=
  reached.invariant (sound_configured now settings) fun _ _ _ valid _ taken =>
    valid.moves (moves_of_step taken)

end Cluster

end OddJob
