import OddJob.Lib.Pointwise
import OddJob.Lib.Ranking
import OddJob.Sql.RoundTrip

/-! `BaseSqlJobQueueManager.GetJobs` run alone: which rows it claims, what it leaves of
the tables, and which jobs it returns. -/

namespace OddJob.Sql

open Linq

variable {Key CliType Value : Type} [LinearOrder Key]

namespace Claim

variable {claim : Claim Key} {scan queue : List SqlCommonDbOddJobMetaData}
  {q : SqlCommonDbOddJobMetaData}

/-- A row that a fetch may claim. -/
structure Eligible (claim : Claim Key) (q : SqlCommonDbOddJobMetaData) : Prop where
  named : q.queueName ∈ claim.queueNames
  due : ∀ doNotExecuteBefore ∈ q.doNotExecuteBefore, doNotExecuteBefore ≤ claim.lockTime
  waiting : q.status = .new ∨ q.status = .retry ∧ q.retryCount ≤ q.maxRetries ∧
    ∃ lastAttempt ∈ q.lastAttempt, lastAttempt + q.minRetryWait * ticksPerSecond ≤ claim.lockTime
  free : ∀ lockClaimTime ∈ q.lockClaimTime, lockClaimTime < claim.lockClaimTimeoutThreshold

omit [LinearOrder Key] in
theorem eligible_iff : claim.eligible q = true ↔ claim.Eligible q := by
  simp only [eligible, Sql.eligible, Bool.and_eq_true, Bool.or_eq_true, decide_eq_true_eq,
    List.contains_iff_mem, Option.isNone_iff_eq_none, Option.any_eq_true]
  constructor
  · rintro ⟨⟨⟨named, due⟩, waiting⟩, free⟩
    refine ⟨named, ?_, waiting.imp_right fun retry => ⟨retry.1.1, retry.1.2, retry.2⟩, ?_⟩
    · intro time present
      obtain ⟨_, same, passed⟩ | none := due <;> simp_all
    · intro time present
      obtain none | ⟨_, same, passed⟩ := free <;> simp_all
  · rintro ⟨named, due, waiting, free⟩
    refine ⟨⟨⟨named, ?_⟩, waiting.imp_right fun retry => ⟨⟨retry.1, retry.2.1⟩, retry.2.2⟩⟩, ?_⟩
    · cases before : q.doNotExecuteBefore with
      | none => exact .inr rfl
      | some time => exact .inl ⟨time, rfl, due time before⟩
    · cases claimed : q.lockClaimTime with
      | none => exact .inl rfl
      | some time => exact .inr ⟨time, rfl, free time claimed⟩

omit [LinearOrder Key] in
instance : DecidablePred (Eligible claim) := fun _ => decidable_of_iff _ eligible_iff

def priority (claim : Claim Key) (q : SqlCommonDbOddJobMetaData) : Key :=
  claim.orderPredicate (jobLockData q)

/-- What the claiming `UPDATE` makes of a row it selects. -/
def lock (claim : Claim Key) (q : SqlCommonDbOddJobMetaData) : SqlCommonDbOddJobMetaData :=
  { q with lockGuid := some claim.lockGuid, lockClaimTime := some claim.lockTime }

theorem lockingCheckQuery_eq (claim : Claim Key) (scan : List SqlCommonDbOddJobMetaData) :
    claim.lockingCheckQuery scan =
      ((orderBy claim.priority (scan.filter claim.eligible)).take claim.fetchSize).map
        jobLockData := by
  rw [lockingCheckQuery, orderBy_map, List.map_take]
  rfl

private theorem takes_iff (order : scan.Perm queue)
    (ids : (queue.map SqlCommonDbOddJobMetaData.id).Nodup) (member : q ∈ queue) :
    claim.Takes scan q ↔
      q ∈ (orderBy claim.priority (scan.filter claim.eligible)).take claim.fetchSize := by
  rw [Takes, lockingCheckQuery_eq, List.any_map, List.any_eq_true]
  constructor
  · rintro ⟨row, chosen, same⟩
    have present : row ∈ queue :=
      order.mem_iff.mp (List.mem_filter.mp (mem_orderBy.mp (List.mem_of_mem_take chosen))).1
    obtain rfl : row = q :=
      List.inj_on_of_nodup_map ids present member (of_decide_eq_true same)
    exact chosen
  · exact fun chosen => ⟨q, chosen, decide_eq_true rfl⟩

theorem takes_perm (claim : Claim Key) (order : scan.Perm queue)
    (ids : (queue.map SqlCommonDbOddJobMetaData.id).Nodup) :
    (queue.filter fun q => claim.Takes scan q).Perm
      ((orderBy claim.priority (scan.filter claim.eligible)).take claim.fetchSize) := by
  have rows : queue.Nodup := List.Nodup.of_map _ ids
  have chosen : ((orderBy claim.priority (scan.filter claim.eligible)).take
      claim.fetchSize).Nodup := by
    refine ((orderBy_perm _ _).nodup_iff.mpr ?_).sublist (List.take_sublist _ _)
    exact (order.nodup_iff.mpr rows).filter _
  rw [List.perm_ext_iff_of_nodup (rows.filter _) chosen]
  intro q
  rw [List.mem_filter, decide_eq_true_eq]
  constructor
  · exact fun ⟨member, taken⟩ => (takes_iff order ids member).mp taken
  · intro taken
    have present : q ∈ queue :=
      order.mem_iff.mp (List.mem_filter.mp (mem_orderBy.mp (List.mem_of_mem_take taken))).1
    exact ⟨present, (takes_iff order ids present).mpr taken⟩

theorem takes_first (claim : Claim Key) (order : scan.Perm queue)
    (ids : (queue.map SqlCommonDbOddJobMetaData.id).Nodup) :
    First claim.priority claim.fetchSize (queue.filter claim.eligible)
      (queue.filter fun q => claim.Takes scan q) :=
  (first_take claim.priority claim.fetchSize (scan.filter claim.eligible)).congr
    (order.filter _) (claim.takes_perm order ids).symm

theorem takes_first_eligible (claim : Claim Key) (order : scan.Perm queue)
    (ids : (queue.map SqlCommonDbOddJobMetaData.id).Nodup) :
    First claim.priority claim.fetchSize (queue.filter claim.Eligible)
      (queue.filter fun q => claim.Takes scan q) := by
  have eligible : queue.filter claim.eligible = queue.filter fun q => claim.Eligible q := by
    apply List.filter_congr
    intro q _
    rw [Bool.eq_iff_iff, decide_eq_true_eq, eligible_iff]
  exact eligible ▸ claim.takes_first order ids

/-- A row that a fetch may claim, with fewer such rows before it than the fetch takes. -/
def Chosen (claim : Claim Key) (queue : List SqlCommonDbOddJobMetaData)
    (q : SqlCommonDbOddJobMetaData) : Prop :=
  claim.Eligible q ∧ (queue.filter fun other => claim.Eligible other ∧
    claim.priority other < claim.priority q).length < claim.fetchSize

instance (claim : Claim Key) (queue : List SqlCommonDbOddJobMetaData) :
    DecidablePred (claim.Chosen queue) := fun _ => inferInstanceAs (Decidable (_ ∧ _))

theorem chosen_of_takes (order : scan.Perm queue)
    (ids : (queue.map SqlCommonDbOddJobMetaData.id).Nodup) (member : q ∈ queue)
    (taken : claim.Takes scan q) : claim.Chosen queue q := by
  have first := (takes_iff order ids member).mp taken
  have distinct : (scan.filter claim.eligible).Nodup :=
    (order.nodup_iff.mpr (List.Nodup.of_map _ ids)).filter _
  have passes := (List.mem_filter.mp (mem_orderBy.mp (List.mem_of_mem_take first))).2
  refine ⟨eligible_iff.mp passes, ?_⟩
  calc (queue.filter fun other => claim.Eligible other ∧
        claim.priority other < claim.priority q).length
      = ((scan.filter claim.eligible).filter fun other =>
          claim.priority other < claim.priority q).length := by
        rw [List.filter_filter, (order.filter _).length_eq]
        congr 1
        apply List.filter_congr
        intro other _
        rw [Bool.eq_iff_iff, decide_eq_true_eq, Bool.and_eq_true, eligible_iff, decide_eq_true_eq,
          and_comm]
    _ < claim.fetchSize := length_lt_of_mem_take distinct first

theorem update_eq (claim : Claim Key) (scan queue : List SqlCommonDbOddJobMetaData) :
    claim.update scan queue = queue.map fun q => if claim.Takes scan q then claim.lock q else q :=
  rfl

theorem locked_update (scan : List SqlCommonDbOddJobMetaData)
    (fresh : ∀ q ∈ queue, q.lockGuid ≠ some claim.lockGuid) :
    (claim.update scan queue).filter (fun q => q.lockGuid = some claim.lockGuid) =
      (queue.filter fun q => claim.Takes scan q).map claim.lock := by
  have chosen : queue.filter ((fun q => decide (q.lockGuid = some claim.lockGuid)) ∘
      fun q => if claim.Takes scan q then claim.lock q else q) =
        queue.filter fun q => claim.Takes scan q := by
    apply List.filter_congr
    intro q member
    by_cases taken : claim.Takes scan q <;> simp [taken, lock, fresh q member]
  rw [update_eq, List.filter_map, chosen]
  apply List.map_congr_left
  intro q member
  exact if_pos (of_decide_eq_true (List.mem_filter.mp member).2)

end Claim

/-- The tables after the claiming `UPDATE`, whose rows are scanned in some order. -/
def claimTables (claim : Claim Key) (scan : List SqlCommonDbOddJobMetaData) (tables : Tables) :
    Tables :=
  { tables with queue := claim.update scan tables.queue }

/-- `GetJobs` with no statement of another client between its claim and its read. -/
def getJobs (decoder : Decoder CliType Value) (claim : Claim Key)
    (scan : List SqlCommonDbOddJobMetaData) (resultSet : List SqlQueueRowSet) (tables : Tables) :
    Tables × Except ClrException (List (SqlDbOddJob CliType Value)) :=
  (claimTables claim scan tables, toList (executeJoinQuery decoder resultSet))

/-- The result is decoded from the rows of one job and of no other. -/
def DecodesTo (decoder : Decoder CliType Value) (tables : Tables) (row : SqlCommonDbOddJobMetaData)
    (result : Except ClrException (SqlDbOddJob CliType Value)) : Prop :=
  ∃ first group, GroupOf tables row group ∧ first.metaData = row ∧
    decoder.ofGroup row.jobGuid first group = result

section Claimed

variable {tables : Tables} {claim : Claim Key} {scan : List SqlCommonDbOddJobMetaData}
  {resultSet : List SqlQueueRowSet}

private theorem guids_claimTables (scan : List SqlCommonDbOddJobMetaData)
    (guids : (tables.queue.map SqlCommonDbOddJobMetaData.jobGuid).Nodup) :
    ((claimTables claim scan tables).queue.map SqlCommonDbOddJobMetaData.jobGuid).Nodup := by
  rw [claimTables, Claim.update, map_updateWhere SqlCommonDbOddJobMetaData.jobGuid
    (by intro _; rfl)]
  exact guids

/-- The read of a fetch finds the jobs that the fetch has claimed. -/
theorem decodings_claimed (decoder : Decoder CliType Value)
    (guids : (tables.queue.map SqlCommonDbOddJobMetaData.jobGuid).Nodup)
    (fresh : ∀ q ∈ tables.queue, q.lockGuid ≠ some claim.lockGuid)
    (returned : Returns (claimTables claim scan tables)
      (fun q => q.lockGuid = some claim.lockGuid) resultSet) :
    ((decodings decoder resultSet).map Prod.fst).Perm
      ((tables.queue.filter fun q => claim.Takes scan q).map
        SqlCommonDbOddJobMetaData.jobGuid) := by
  have listed := decodings_ids decoder (guids_claimTables scan guids) returned
  simp only [claimTables, Claim.locked_update scan fresh, List.map_map] at listed
  exact listed

end Claimed

instance decidableReturned {Thrown Result : Type} (result : Except Thrown Result) :
    Decidable (∃ value, result = .ok value) :=
  match result with
  | .ok value => .isTrue ⟨value, rfl⟩
  | .error _ => .isFalse nofun

/-- The types and the arguments that are stored of a job can be read. -/
structure Decoder.Reads (decoder : Decoder CliType Value) (tables : Tables)
    (row : SqlCommonDbOddJobMetaData) : Prop where
  typeExecutedOn : ∃ type, decoder.getTypeForJob (some row.typeExecutedOn) = .ok type
  params : ∀ s ∈ tables.params, s.jobGuid = row.jobGuid → s.serializedType.isSome = true →
    ∃ arg, decoder.param s = .ok arg
  generics : ∀ t ∈ tables.generics, t.jobGuid = row.jobGuid → t.paramTypeName.isSome = true →
    ∃ type, decoder.getTypeForJob t.paramTypeName = .ok type

instance (decoder : Decoder CliType Value) (tables : Tables) :
    DecidablePred (decoder.Reads tables) := fun row =>
  decidable_of_iff ((∃ type, decoder.getTypeForJob (some row.typeExecutedOn) = .ok type) ∧
    (∀ s ∈ tables.params, s.jobGuid = row.jobGuid → s.serializedType.isSome = true →
      ∃ arg, decoder.param s = .ok arg) ∧
    ∀ t ∈ tables.generics, t.jobGuid = row.jobGuid → t.paramTypeName.isSome = true →
      ∃ type, decoder.getTypeForJob t.paramTypeName = .ok type)
    ⟨fun ⟨type, params, generics⟩ => ⟨type, params, generics⟩,
      fun reads => ⟨reads.typeExecutedOn, reads.params, reads.generics⟩⟩

section Reads

variable {decoder : Decoder CliType Value} {tables : Tables} {row : SqlCommonDbOddJobMetaData}

theorem Decoder.Reads.ofGroup (reads : decoder.Reads tables row) {first : SqlQueueRowSet}
    {group : List SqlQueueRowSet} (valid : GroupOf tables row group)
    (own : first.metaData = row) (jobGuid : Guid) :
    ∃ job, decoder.ofGroup jobGuid first group = .ok job := by
  obtain ⟨typeExecutedOn, found⟩ := own ▸ reads.typeExecutedOn
  obtain ⟨jobArgs, read⟩ : ∃ jobArgs, (orderedParams group).mapM decoder.param = .ok jobArgs := by
    apply mapM_returns_iff.mpr
    intro s member
    obtain ⟨⟨present, same⟩, typed⟩ := valid.mem_orderedParams member
    exact reads.params s present same typed
  obtain ⟨types, named⟩ : ∃ types, (orderedGenerics group).mapM (fun t =>
      decoder.getTypeForJob t.paramTypeName) = .ok types := by
    apply mapM_returns_iff.mpr
    intro t member
    obtain ⟨⟨present, same⟩, typed⟩ := valid.generics.mp (mem_of_mem_firsts member)
    exact reads.generics t present same typed
  exact ⟨_, by
    rw [Decoder.ofGroup, found]
    simp only [bind, Except.bind, read, named]
    rfl⟩

variable {claim : Claim Key} {scan : List SqlCommonDbOddJobMetaData}
  {resultSet : List SqlQueueRowSet}

/-- Where the claimed jobs can be read, a fetch returns them. -/
theorem getJobs_of_reads
    (guids : (tables.queue.map SqlCommonDbOddJobMetaData.jobGuid).Nodup)
    (fresh : ∀ q ∈ tables.queue, q.lockGuid ≠ some claim.lockGuid)
    (returned : Returns (claimTables claim scan tables)
      (fun q => q.lockGuid = some claim.lockGuid) resultSet)
    (reads : ∀ row ∈ tables.queue, claim.Takes scan row → decoder.Reads tables row) :
    ∃ jobs, (getJobs decoder claim scan resultSet tables).2 = .ok jobs ∧
      (jobs.map SqlDbOddJob.jobId).Perm
        ((tables.queue.filter fun q => claim.Takes scan q).map
          SqlCommonDbOddJobMetaData.jobGuid) := by
  obtain ⟨jobs, done⟩ : ∃ jobs, toList (executeJoinQuery decoder resultSet) = .ok jobs := by
    apply exists_toList_iff.mpr
    rw [executeJoinQuery_eq, List.forall_mem_map]
    rintro ⟨jobGuid, result⟩ member
    obtain ⟨row, present, accepted, _, first, group, whole, own, rfl⟩ :=
      exists_group_of_decoding (guids_claimTables scan guids) returned member
    have chosen : row ∈ (claim.update scan tables.queue).filter
        (fun q => q.lockGuid = some claim.lockGuid) := List.mem_filter.mpr ⟨present, accepted⟩
    rw [Claim.locked_update scan fresh] at chosen
    obtain ⟨old, taken, rfl⟩ := List.mem_map.mp chosen
    obtain ⟨known, taken⟩ := List.mem_filter.mp taken
    have read := reads old known (of_decide_eq_true taken)
    -- the claim changes nothing that is read
    have locked : decoder.Reads (claimTables claim scan tables) (claim.lock old) :=
      ⟨read.typeExecutedOn, read.params, read.generics⟩
    exact locked.ofGroup whole own _
  refine ⟨jobs, done, ?_⟩
  rw [decoder.fetchedIds_eq done]
  exact decodings_claimed decoder guids fresh returned

end Reads

/-- A fetch run alone claims the first eligible rows, touches nothing but their locks, and
reads one job for each; it returns them when each can be decoded, and throws otherwise. -/
theorem getJobs_returns_claimed {tables : Tables} {claim : Claim Key}
    {decoder : Decoder CliType Value} {scan : List SqlCommonDbOddJobMetaData}
    {resultSet : List SqlQueueRowSet}
    (ids : (tables.queue.map SqlCommonDbOddJobMetaData.id).Nodup)
    (guids : (tables.queue.map SqlCommonDbOddJobMetaData.jobGuid).Nodup)
    (fresh : ∀ q ∈ tables.queue, q.lockGuid ≠ some claim.lockGuid)
    (order : scan.Perm tables.queue)
    (returned : Returns (claimTables claim scan tables)
      (fun q => q.lockGuid = some claim.lockGuid) resultSet) :
    ∃ claimed : List SqlCommonDbOddJobMetaData,
      First claim.priority claim.fetchSize (tables.queue.filter claim.Eligible) claimed ∧
      (getJobs decoder claim scan resultSet tables).1 = { tables with
        queue := tables.queue.map fun q => if q ∈ claimed then claim.lock q else q } ∧
      ((decodings decoder resultSet).map Prod.fst).Perm
        (claimed.map SqlCommonDbOddJobMetaData.jobGuid) ∧
      (∀ entry ∈ decodings decoder resultSet, ∃ row ∈ claimed, row.jobGuid = entry.1 ∧
        DecodesTo decoder (claimTables claim scan tables) (claim.lock row) entry.2) ∧
      (∀ jobs, (getJobs decoder claim scan resultSet tables).2 = .ok jobs →
        (jobs.map SqlDbOddJob.jobId).Perm (claimed.map SqlCommonDbOddJobMetaData.jobGuid)) ∧
      ((∃ jobs, (getJobs decoder claim scan resultSet tables).2 = .ok jobs) ↔
        ∀ entry ∈ decodings decoder resultSet, ∃ job, entry.2 = .ok job) := by
  have locked := Claim.locked_update scan fresh
  have guidsAfter := @guids_claimTables Key _ tables claim scan guids
  have listed := decodings_claimed decoder guids fresh returned
  refine ⟨tables.queue.filter fun q => claim.Takes scan q, claim.takes_first_eligible order ids,
    ?_, listed, ?_, ?_, ?_⟩
  · simp only [getJobs, claimTables, Claim.update_eq]
    congr 1
    apply List.map_congr_left
    intro q member
    simp [List.mem_filter, member]
  · rintro ⟨jobGuid, result⟩ member
    obtain ⟨row, present, accepted, guid, whole⟩ :=
      exists_group_of_decoding guidsAfter returned member
    have chosen : row ∈ (claim.update scan tables.queue).filter
        (fun q => q.lockGuid = some claim.lockGuid) := List.mem_filter.mpr ⟨present, accepted⟩
    rw [locked] at chosen
    obtain ⟨old, taken, rfl⟩ := List.mem_map.mp chosen
    exact ⟨old, taken, guid, whole⟩
  · intro jobs done
    rw [decoder.fetchedIds_eq done]
    exact listed
  · rw [getJobs, exists_toList_iff, executeJoinQuery_eq, List.forall_mem_map]

def queuedRow (id : Int) (status : JobStates) (lastAttempt : Option Ticks) :
    SqlCommonDbOddJobMetaData where
  id
  jobGuid := id.toNat + 6
  typeExecutedOn := "Jobs.SampleJob, Jobs"
  methodName := "Add"
  maxRetries := 1
  minRetryWait := 60
  lastAttempt
  retryCount := 1
  status
  queueName := "default"
  doNotExecuteBefore := none
  lockClaimTime := none
  lockGuid := none
  createdDate := some 10

def queuedTables : Tables where
  queue := [queuedRow 1 .new none, queuedRow 2 .retry (some 20)]
  params := [{ jobGuid := 7, serializedValue := some "\x7b", serializedType := some "Jobs.Order" }]

def fetchClaim : Claim Int where
  queueNames := ["default"]
  fetchSize := 5
  orderPredicate q := q.jobId
  lockGuid := 40
  lockTime := 100
  jobClaimLockTimeoutInSeconds := defaultJobClaimLockTimeoutInSeconds

def textDecoder (readable : String → Bool) : Decoder String String where
  getTypeForJob name := .ok name
  deserializeObject text _ :=
    if text.all readable then .ok text else .error (.json "Unexpected end when reading JSON")
  coreFullName := "mscorlib, Version=4.0.0.0".toList

def queuedRows : List SqlQueueRowSet :=
  joinQuery ((claimTables fetchClaim queuedTables.queue queuedTables).queue.filter
    fun q => q.lockGuid = some fetchClaim.lockGuid)
    (claimTables fetchClaim queuedTables.queue queuedTables)

/-- Four jobs that are due, each with an argument, and one that waits for its retry. -/
def busyTables : Tables where
  queue := [queuedRow 1 .new none, queuedRow 2 .retry (some 20), queuedRow 3 .new none,
    queuedRow 4 .new none, queuedRow 5 .new none]
  params := [7, 9, 10, 11].map fun jobGuid =>
    { jobGuid, serializedValue := some "\x7b\x7d", serializedType := some "Jobs.Order" }

def newestClaim : Claim Int :=
  { fetchClaim with fetchSize := 2, orderPredicate := fun q => -q.jobId }

def busyRows : List SqlQueueRowSet :=
  joinQuery ((claimTables newestClaim busyTables.queue busyTables).queue.filter
    fun q => q.lockGuid = some newestClaim.lockGuid)
    (claimTables newestClaim busyTables.queue busyTables)

theorem getJobs_returns_claimed_of_four : ∃ jobs,
    (getJobs (textDecoder fun _ => true) newestClaim busyTables.queue.reverse busyRows
      busyTables).2 = .ok jobs ∧ (jobs.map SqlDbOddJob.jobId).Perm [10, 11] := by
  obtain ⟨claimed, first, _, _, _, same, complete⟩ :=
    @getJobs_returns_claimed Int String String _ busyTables newestClaim
      (textDecoder fun _ => true) busyTables.queue.reverse busyRows (by decide) (by decide)
      (by decide) (List.reverse_perm _) (by decide +kernel)
  have newest : First newestClaim.priority 2 (busyTables.queue.filter newestClaim.Eligible)
      [queuedRow 4 .new none, queuedRow 5 .new none] := {
    included := by decide +kernel
    count := by decide +kernel
    ahead := by decide +kernel }
  have chosen := first.unique newest (by decide +kernel) (by decide +kernel)
  obtain ⟨jobs, done⟩ := complete.mpr (by
    have two : decodings (textDecoder fun _ => true) busyRows = [(10, .ok _), (11, .ok _)] := rfl
    rw [two]
    intro entry member
    rcases List.mem_cons.mp member with rfl | member
    · exact ⟨_, rfl⟩
    · exact List.mem_singleton.mp member ▸ ⟨_, rfl⟩)
  exact ⟨jobs, done, (same jobs done).trans (chosen.map _)⟩

/-- A claimed job whose stored text is no JSON makes `GetJobs` throw: nothing is returned. -/
theorem getJobs_throws_undecodable :
    (queuedTables.queue.map SqlCommonDbOddJobMetaData.jobGuid).Nodup ∧
    Returns (claimTables fetchClaim queuedTables.queue queuedTables)
      (fun q => q.lockGuid = some fetchClaim.lockGuid) queuedRows ∧
    ((claimTables fetchClaim queuedTables.queue queuedTables).queue.filter
      fun q => q.lockGuid = some fetchClaim.lockGuid).map SqlCommonDbOddJobMetaData.jobGuid = [7] ∧
    (getJobs (textDecoder fun text => text ≠ "\x7b") fetchClaim queuedTables.queue queuedRows
      queuedTables).2 = .error (.json "Unexpected end when reading JSON") :=
  ⟨by decide, List.Perm.refl _, rfl, rfl⟩

end OddJob.Sql
