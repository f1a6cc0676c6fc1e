import OddJob.Cluster.Reports

/-! The runs of the cluster are runs of the record of each of its jobs, with reports in
time where its marks are, and by the holder where its commands find their lock. -/

namespace OddJob.Cluster

open Akka Sql Transition

variable {Key CliType Value : Type} [LinearOrder Key] {configuration : Configuration Key}
  {cluster after : Cluster CliType Value} {jobId : Guid} {item : Lease.Item Guid Ticks}

theorem Models.step {action : ClusterAction CliType Value}
    (valid : Models configuration jobId cluster item) (sound : Sound cluster)
    (move : Moves configuration cluster action after) :
    Follows configuration jobId cluster action after item := by
  have soundAfter := sound.moves move
  cases move with
  | waited later ordered => exact valid.waited ordered
  | inserted jobData fresh => exact .unnoticed (valid.inserted sound fresh)
  | proceeded jobId insertion member same => exact valid.proceeded sound member _
  | crashed index node found =>
    exact .unnoticed (valid.quiet sound found rfl rfl rfl rfl fun _ => id)
  | acted index node action engine found inside taken => exact valid.acted sound found inside taken
  | claimed index node request lockGuid scan found asked free order unused =>
    exact valid.claimed sound found order unused soundAfter.locks _
  | replied index node lockGuid claimedAt rows engine found claimed returned taken =>
    exact valid.replied sound found claimed returned taken _
  | threw index node engine found taken =>
    obtain ⟨stage, began, unchanged | ⟨batch, nothing, _⟩⟩ := taken_of_layerReply taken
    · exact .unnoticed (valid.quiet sound found unchanged stage began rfl fun _ none => by
        cases none)
    · cases nothing
  | applied index node command rest engine found front taken =>
    exact valid.applied sound found front taken
  | lost index node command rest engine found front taken =>
    obtain rfl := processed_of_front front taken
    exact .unnoticed (valid.quiet sound found rfl rfl rfl rfl fun _ => id)

omit [LinearOrder Key] in
theorem Models.timely (valid : Models configuration jobId cluster item) (sound : Sound cluster)
    (timely : Timely configuration cluster) : Lease.Timely item := by
  intro lock holding held busy
  obtain ⟨index, node, ticket, fetched, took, rfl⟩ := valid.genuine lock holding held busy
  obtain ⟨same, found, model⟩ := valid.lease index node ticket fetched took
  obtain rfl : holding = same := Option.some.inj (held.symm.trans found)
  have requested : ⟨fetched, ticket⟩ ∈ node.engine.requests := by
    have sent := (sound.node index node took.found).told.requests ticket fetched took.taken
    have listed : ⟨fetched, ticket⟩ ∈ node.engine.requestsFor ticket := by
      rw [sent]
      rw [model.progress] at busy
      cases stage : node.engine.stage ticket with
      | fetched | missing =>
        rw [stage] at busy
        exact absurd rfl busy
      | _ => exact List.mem_singleton.mpr rfl
    exact (List.mem_filter.mp listed).1
  rw [model.startedAt, model.deadline, valid.now]
  exact timely node (List.mem_of_getElem? took.found) _ requested

/-- What a schedule of the cluster must give to a schedule of the record. -/
def Allows (configuration : Configuration Key) (jobId : Guid)
    (allowed : Cluster CliType Value → ClusterAction CliType Value → Prop)
    (leaseAllowed : Lease.Item Guid Ticks → Lease.Action Guid Ticks → Prop) : Prop :=
  ∀ before after action item next leaseAction, allowed before action → Sound after →
    before.step configuration action = some after → Models configuration jobId after next →
    Lease.Item.step item leaseAction = some next →
    (Owned before action → Lease.Owned item leaseAction) → leaseAllowed item leaseAction

/-- The cluster refines the record of each of its jobs. -/
def simulation (configuration : Configuration Key) (jobId : Guid)
    {allowed : Cluster CliType Value → ClusterAction CliType Value → Prop}
    {leaseAllowed : Lease.Item Guid Ticks → Lease.Action Guid Ticks → Prop}
    (allows : Allows configuration jobId allowed leaseAllowed) :
    Simulation (step configuration) allowed Lease.Item.step leaseAllowed where
  related cluster item := Sound cluster ∧ Models configuration jobId cluster item
  forward before action after item related permitted taken := by
    obtain ⟨sound, valid⟩ := related
    have move := moves_of_step taken
    have soundAfter := sound.moves move
    rcases valid.step sound move with model | ⟨leaseAction, next, stepped, model, owned⟩
    · exact ⟨item, .refl, soundAfter, model⟩
    · have legal := allows before after action item next leaseAction permitted soundAfter taken
        model stepped owned
      exact ⟨next, .next .refl legal stepped, soundAfter, model⟩

omit [LinearOrder Key] in
theorem related_configured (configuration : Configuration Key) (jobId : Guid) (now : Ticks)
    (settings : List (NodeSettings CliType Value)) : Sound (configured now settings) ∧
      Models configuration jobId (configured now settings) { now } :=
  ⟨sound_configured now settings, models_configured configuration jobId now settings⟩

theorem allows_timely : @Allows Key CliType Value _ configuration jobId
    (staying (step configuration) (Timely configuration))
    (staying Lease.Item.step Lease.Timely) := by
  intro before after action item next leaseAction permitted sound taken model stepped _ other same
  obtain rfl : next = other := Option.some.inj (stepped.symm.trans same)
  exact model.timely sound (permitted after taken)

theorem allows_owned : @Allows Key CliType Value _ configuration jobId Owned Lease.Owned :=
  fun _ _ _ _ _ _ permitted _ _ _ _ owned => owned permitted

/-- In a run whose marks are in time, every job is a record whose reports are in time. -/
theorem exists_guarded {now : Ticks} {settings : List (NodeSettings CliType Value)}
    (reached : Reaches (step configuration) (staying (step configuration) (Timely configuration))
      (configured now settings) cluster) (jobId : Guid) :
    ∃ item, Models configuration jobId cluster item ∧ Lease.Guarded item := by
  obtain ⟨item, run, _, model⟩ := (simulation configuration jobId allows_timely).reaches
    (related_configured configuration jobId now settings) reached
  exact ⟨item, model, Lease.guarded_of_reaches run⟩

/-- In a run where every command finds the lock of its claim, every job is a record whose
reports come from its holder. -/
theorem exists_owned {now : Ticks} {settings : List (NodeSettings CliType Value)}
    (reached : Reaches (step configuration) Owned (configured now settings) cluster)
    (jobId : Guid) : ∃ item, Models configuration jobId cluster item ∧
      Reaches Lease.Item.step Lease.Owned { now } item := by
  obtain ⟨item, run, _, model⟩ := (simulation configuration jobId allows_owned).reaches
    (related_configured configuration jobId now settings) reached
  exact ⟨item, model, run⟩

end OddJob.Cluster
