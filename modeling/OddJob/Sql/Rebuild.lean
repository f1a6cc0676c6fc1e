import OddJob.Sql.Adder
import OddJob.Sql.Manager

/-! The join gives a job its arguments and generic types back: sorting and
deduplicating undo the cross product, in whatever order the rows arrive. -/

namespace OddJob.Sql

open Linq

variable {tables : Tables} {jobs : List SqlCommonDbOddJobMetaData}

theorem mem_joinQuery {row : SqlQueueRowSet} :
    row ∈ joinQuery jobs tables ↔ row.metaData ∈ jobs ∧
      ((row.paramData ∈ tables.params ∧ row.metaData.jobGuid = row.paramData.jobGuid) ∨
        ((∀ param ∈ tables.params, row.metaData.jobGuid ≠ param.jobGuid) ∧ row.paramData = {})) ∧
      ((row.jobMethodGenericData ∈ tables.generics ∧
          row.metaData.jobGuid = row.jobMethodGenericData.jobGuid) ∨
        ((∀ generic ∈ tables.generics, row.metaData.jobGuid ≠ generic.jobGuid) ∧
          row.jobMethodGenericData = {})) := by
  obtain ⟨job, param, generic⟩ := row
  have shape : ⟨job, param, generic⟩ ∈ joinQuery jobs tables ↔
      ((job, param), generic) ∈
        leftJoin onGeneric {} (leftJoin onParam {} jobs tables.params) tables.generics := by
    simp only [joinQuery, List.mem_map]
    constructor
    · rintro ⟨⟨⟨_, _⟩, _⟩, member, same⟩
      cases same
      exact member
    · exact fun member => ⟨_, member, rfl⟩
  rw [shape, mem_leftJoin, mem_leftJoin]
  simp only [onParam, onGeneric, decide_eq_true_eq, decide_eq_false_iff_not, and_assoc]

theorem exists_mem_joinQuery (tables : Tables) {job : SqlCommonDbOddJobMetaData}
    (member : job ∈ jobs) : ∃ row ∈ joinQuery jobs tables, row.metaData = job := by
  obtain ⟨param, left⟩ := exists_mem_leftJoin onParam {} tables.params member
  obtain ⟨generic, found⟩ := exists_mem_leftJoin onGeneric {} tables.generics left
  exact ⟨⟨job, param, generic⟩, List.mem_map.mpr ⟨_, found, rfl⟩, rfl⟩

theorem exists_mem_joinQuery_param {job : SqlCommonDbOddJobMetaData}
    {param : SqlCommonOddJobParamMetaData} (member : job ∈ jobs) (present : param ∈ tables.params)
    (same : param.jobGuid = job.jobGuid) :
    ∃ row ∈ joinQuery jobs tables, row.metaData = job ∧ row.paramData = param := by
  have left : (job, param) ∈ leftJoin onParam {} jobs tables.params :=
    mem_leftJoin.mpr ⟨member, .inl ⟨present, by simp [onParam, same]⟩⟩
  obtain ⟨generic, found⟩ := exists_mem_leftJoin onGeneric {} tables.generics left
  exact ⟨⟨job, param, generic⟩, List.mem_map.mpr ⟨_, found, rfl⟩, rfl, rfl⟩

theorem exists_mem_joinQuery_generic {job : SqlCommonDbOddJobMetaData}
    {generic : SqlDbOddJobMethodGenericInfo} (member : job ∈ jobs)
    (present : generic ∈ tables.generics) (same : generic.jobGuid = job.jobGuid) :
    ∃ row ∈ joinQuery jobs tables, row.metaData = job ∧ row.jobMethodGenericData = generic := by
  obtain ⟨param, left⟩ := exists_mem_leftJoin onParam {} tables.params member
  refine ⟨⟨job, param, generic⟩, List.mem_map.mpr ⟨((job, param), generic), ?_, rfl⟩, rfl, rfl⟩
  exact mem_leftJoin.mpr ⟨left, .inl ⟨present, by simp [onGeneric, same]⟩⟩

section Group

variable {group : List SqlQueueRowSet} {job : SqlCommonDbOddJobMetaData}

/-- The rows of one job in a result set, in any order. -/
structure GroupOf (tables : Tables) (job : SqlCommonDbOddJobMetaData)
    (group : List SqlQueueRowSet) : Prop where
  rows : ∀ row, row ∈ group ↔ row ∈ joinQuery [job] tables

theorem GroupOf.params (valid : GroupOf tables job group) {param : SqlCommonOddJobParamMetaData} :
    param ∈ ((orderBy (fun p => p.paramData.paramOrdinal) group).map
        SqlQueueRowSet.paramData).filter (fun s => s.serializedType.isSome) ↔
      (param ∈ tables.params ∧ param.jobGuid = job.jobGuid) ∧ param.serializedType.isSome = true := by
  rw [List.mem_filter, List.mem_map]
  apply and_congr_left
  intro typed
  constructor
  · rintro ⟨row, member, rfl⟩
    obtain ⟨known, matched, _⟩ := mem_joinQuery.mp ((valid.rows row).mp (mem_orderBy.mp member))
    obtain rfl := List.mem_singleton.mp known
    rcases matched with ⟨present, same⟩ | ⟨_, default⟩
    · exact ⟨present, same.symm⟩
    · rw [default] at typed
      cases typed
  · rintro ⟨present, same⟩
    obtain ⟨row, member, _, rfl⟩ := exists_mem_joinQuery_param List.mem_cons_self present same
    exact ⟨row, mem_orderBy.mpr ((valid.rows row).mpr member), rfl⟩

theorem GroupOf.generics (valid : GroupOf tables job group)
    {generic : SqlDbOddJobMethodGenericInfo} :
    generic ∈ ((orderBy (fun q => q.jobMethodGenericData.paramOrder) group).filter
        (fun t => t.jobMethodGenericData.paramTypeName.isSome)).map
          SqlQueueRowSet.jobMethodGenericData ↔
      (generic ∈ tables.generics ∧ generic.jobGuid = job.jobGuid) ∧
        generic.paramTypeName.isSome = true := by
  rw [List.mem_map]
  constructor
  · rintro ⟨row, member, rfl⟩
    obtain ⟨ordered, typed⟩ := List.mem_filter.mp member
    obtain ⟨known, _, matched⟩ := mem_joinQuery.mp ((valid.rows row).mp (mem_orderBy.mp ordered))
    obtain rfl := List.mem_singleton.mp known
    rcases matched with ⟨present, same⟩ | ⟨_, default⟩
    · exact ⟨⟨present, same.symm⟩, typed⟩
    · rw [default] at typed
      cases typed
  · rintro ⟨⟨present, same⟩, typed⟩
    obtain ⟨row, member, _, rfl⟩ := exists_mem_joinQuery_generic List.mem_cons_self present same
    exact ⟨row, List.mem_filter.mpr ⟨mem_orderBy.mpr ((valid.rows row).mpr member), typed⟩, rfl⟩

private theorem params_sorted (group : List SqlQueueRowSet) :
    (((orderBy (fun p => p.paramData.paramOrdinal) group).map SqlQueueRowSet.paramData).filter
      fun s => s.serializedType.isSome).Pairwise fun first second =>
        first.paramOrdinal ≤ second.paramOrdinal := by
  refine List.Pairwise.filter _ (List.pairwise_map.mpr ?_)
  exact orderBy_sorted _ group

private theorem generics_sorted (group : List SqlQueueRowSet) :
    (((orderBy (fun q => q.jobMethodGenericData.paramOrder) group).filter
      fun t => t.jobMethodGenericData.paramTypeName.isSome).map
        SqlQueueRowSet.jobMethodGenericData).Pairwise fun first second =>
          first.paramOrder ≤ second.paramOrder := by
  refine List.pairwise_map.mpr (List.Pairwise.filter _ ?_)
  exact orderBy_sorted _ group

theorem orderedParams_increasing (group : List SqlQueueRowSet) :
    (orderedParams group).Pairwise fun first second => first.paramOrdinal < second.paramOrdinal :=
  firsts_increasing (params_sorted group)

theorem GroupOf.mem_orderedParams (valid : GroupOf tables job group)
    {param : SqlCommonOddJobParamMetaData} (member : param ∈ orderedParams group) :
    (param ∈ tables.params ∧ param.jobGuid = job.jobGuid) ∧ param.serializedType.isSome = true :=
  valid.params.mp (mem_of_mem_firsts member)

theorem GroupOf.exists_orderedParams (valid : GroupOf tables job group)
    {param : SqlCommonOddJobParamMetaData} (present : param ∈ tables.params)
    (same : param.jobGuid = job.jobGuid) (typed : param.serializedType.isSome = true) :
    ∃ kept ∈ orderedParams group, kept.paramOrdinal = param.paramOrdinal :=
  exists_first (valid.params.mpr ⟨⟨present, same⟩, typed⟩)

/-- Rows that are in strictly increasing order come back as they are. -/
theorem GroupOf.orderedGenerics_eq (valid : GroupOf tables job group)
    {expected : List SqlDbOddJobMethodGenericInfo}
    (increasing : expected.Pairwise fun first second => first.paramOrder < second.paramOrder)
    (same : ∀ generic, generic ∈ expected ↔
      (generic ∈ tables.generics ∧ generic.jobGuid = job.jobGuid) ∧
        generic.paramTypeName.isSome = true) : orderedGenerics group = expected :=
  firsts_eq_of_increasing (generics_sorted group) increasing fun generic =>
    valid.generics.trans (same generic).symm

end Group

/-- The parameter and generic rows of the job are all there, and nobody else's. -/
structure Stored (tables : Tables) (jobData : SerializableOddJob) : Prop where
  params : ∀ param, param ∈ tables.params ∧ param.jobGuid = jobData.jobId ↔
    param ∈ getParamDataForJob jobData
  generics : ∀ generic, generic ∈ tables.generics ∧ generic.jobGuid = jobData.jobId ↔
    generic ∈ getGenericDataForJob jobData

/-- What a reader gets of the arguments and generic types of a job: one parameter for each
ordinal under which the job has a parameter with a type, in ordinal order, and the generic
types that have a name. -/
structure Carries (jobData : SerializableOddJob) (jobArgs : List OddJobSerializedParameter)
    (methodGenericTypes : List (Option String)) : Prop where
  increasing : jobArgs.Pairwise fun first second => first.ordinal < second.ordinal
  genuine : ∀ arg ∈ jobArgs, arg ∈ jobData.jobArgs ∧ arg.typeName.isSome = true
  complete : ∀ arg ∈ jobData.jobArgs, arg.typeName.isSome = true →
    ∃ kept ∈ jobArgs, kept.ordinal = arg.ordinal
  generics : methodGenericTypes = jobData.methodGenericTypes.filter Option.isSome

/-- Parameters with distinct ordinals that all have types come back as they are, sorted. -/
theorem Carries.exact {jobData : SerializableOddJob} {jobArgs : List OddJobSerializedParameter}
    {methodGenericTypes : List (Option String)}
    (carries : Carries jobData jobArgs methodGenericTypes)
    (distinct : (jobData.jobArgs.map OddJobSerializedParameter.ordinal).Nodup)
    (typed : ∀ arg ∈ jobData.jobArgs, arg.typeName.isSome = true) :
    jobArgs = orderBy OddJobSerializedParameter.ordinal jobData.jobArgs := by
  have permuted := orderBy_perm OddJobSerializedParameter.ordinal jobData.jobArgs
  have increasing : (orderBy OddJobSerializedParameter.ordinal jobData.jobArgs).Pairwise
      fun first second => first.ordinal < second.ordinal := by
    have keys : ((orderBy OddJobSerializedParameter.ordinal jobData.jobArgs).map
        OddJobSerializedParameter.ordinal).Nodup := (permuted.map _).nodup_iff.mpr distinct
    apply ((orderBy_sorted _ jobData.jobArgs).and (List.pairwise_map.mp keys)).imp
    rintro first second ⟨ordered, different⟩
    exact lt_of_le_of_ne ordered different
  apply increasing_unique carries.increasing increasing
  intro arg
  rw [permuted.mem_iff]
  constructor
  · exact fun member => (carries.genuine arg member).1
  · intro member
    obtain ⟨kept, present, same⟩ := carries.complete arg member (typed arg member)
    obtain rfl : kept = arg :=
      List.inj_on_of_nodup_map distinct (carries.genuine kept present).1 member same
    exact present

private theorem serializedParameter_mem {jobData : SerializableOddJob}
    {param : SqlCommonOddJobParamMetaData} (member : param ∈ getParamDataForJob jobData) :
    serializedParameter param ∈ jobData.jobArgs := by
  obtain ⟨arg, present, rfl⟩ := List.mem_map.mp member
  exact present

theorem Stored.carries {jobData : SerializableOddJob} {job : SqlCommonDbOddJobMetaData}
    {group : List SqlQueueRowSet} (stored : Stored tables jobData)
    (valid : GroupOf tables job group) (same : job.jobGuid = jobData.jobId) :
    Carries jobData ((orderedParams group).map serializedParameter)
      ((orderedGenerics group).map SqlDbOddJobMethodGenericInfo.paramTypeName) := by
  constructor
  · exact List.pairwise_map.mpr (orderedParams_increasing group)
  · intro arg member
    obtain ⟨param, kept, rfl⟩ := List.mem_map.mp member
    obtain ⟨present, typed⟩ := valid.mem_orderedParams kept
    rw [same] at present
    exact ⟨serializedParameter_mem ((stored.params param).mp present), typed⟩
  · intro arg member typed
    let param : SqlCommonOddJobParamMetaData := {
      jobGuid := jobData.jobId
      paramOrdinal := arg.ordinal
      serializedValue := arg.value
      serializedType := arg.typeName
      parameterName := arg.name }
    obtain ⟨present, owned⟩ := (stored.params param).mpr (List.mem_map.mpr ⟨arg, member, rfl⟩)
    obtain ⟨kept, found, ordinal⟩ :=
      valid.exists_orderedParams present (owned.trans same.symm) typed
    exact ⟨serializedParameter kept, List.mem_map_of_mem found, ordinal⟩
  · have increasing : ((getGenericDataForJob jobData).filter fun generic =>
        generic.paramTypeName.isSome).Pairwise fun first second =>
          first.paramOrder < second.paramOrder := by
      refine List.Pairwise.filter _ (List.pairwise_map.mpr ?_)
      have indices : ((jobData.methodGenericTypes.zipIdx).map Prod.snd).Pairwise (· < ·) := by
        rw [List.zipIdx_map_snd]
        exact List.pairwise_lt_range'
      refine (List.pairwise_map.mp indices).imp fun below => ?_
      exact Int.ofNat_lt.mpr below
    rw [valid.orderedGenerics_eq increasing fun generic => by
      rw [List.mem_filter, same, stored.generics]]
    have names : (getGenericDataForJob jobData).map SqlDbOddJobMethodGenericInfo.paramTypeName =
        jobData.methodGenericTypes := by
      rw [getGenericDataForJob, List.map_map]
      exact List.zipIdx_map_fst 0 jobData.methodGenericTypes
    rw [← names, List.filter_map]
    rfl

theorem toList_eq_ok_iff {results : List (Except ClrException Row)} {rows : List Row} :
    toList results = .ok rows ↔ results = rows.map .ok := by
  induction results generalizing rows with
  | nil => simp [toList, eq_comm]
  | cons first rest ih =>
    cases first with
    | error thrown =>
      constructor
      · intro done
        cases done
      · cases rows <;> simp
    | ok head =>
      cases later : toList rest with
      | error thrown =>
        have unread (others : List Row) : rest ≠ others.map .ok := fun same => by
          simp [ih.mpr same] at later
        cases rows with
        | nil => simp [toList, later, bind, Except.bind]
        | cons row others => simp [toList, later, bind, Except.bind, unread others]
      | ok others =>
        obtain rfl := ih.mp later
        cases rows with
        | nil => simp [toList, later, bind, Except.bind, pure, Except.pure]
        | cons row more =>
          have injective : Function.Injective (Except.ok : Row → Except ClrException Row) :=
            fun _ _ same => Except.ok.inj same
          simp [toList, later, bind, Except.bind, pure, Except.pure, injective.list_map.eq_iff]

/-- A lazy query runs to its end where none of its rows throws. -/
theorem exists_toList_iff {results : List (Except ClrException Row)} :
    (∃ rows, toList results = .ok rows) ↔ ∀ result ∈ results, ∃ row, result = .ok row := by
  simp only [toList_eq_ok_iff]
  constructor
  · rintro ⟨rows, rfl⟩ result member
    obtain ⟨row, _, rfl⟩ := List.mem_map.mp member
    exact ⟨row, rfl⟩
  · intro decoded
    induction results with
    | nil => exact ⟨[], rfl⟩
    | cons first rest ih =>
      obtain ⟨row, rfl⟩ := decoded first List.mem_cons_self
      obtain ⟨rows, rfl⟩ := ih fun result member => decoded result (List.mem_cons_of_mem _ member)
      exact ⟨row :: rows, rfl⟩

theorem mem_toList {results : List (Except ClrException Row)} {rows : List Row} {row : Row}
    (done : toList results = .ok rows) (member : row ∈ rows) : .ok row ∈ results :=
  toList_eq_ok_iff.mp done ▸ List.mem_map_of_mem member

variable {CliType Value : Type}

/-- The jobs of a result set under their ids, each decoded or with what decoding it throws. -/
def decodings (decoder : Decoder CliType Value) (resultSet : List SqlQueueRowSet) :
    List (Guid × Except ClrException (SqlDbOddJob CliType Value)) :=
  (groupBy (fun q => q.metaData.jobGuid) resultSet).filterMap fun (jobGuid, group) =>
    group.head?.map fun first => (jobGuid, decoder.ofGroup jobGuid first group)

theorem executeJoinQuery_eq (decoder : Decoder CliType Value) (resultSet : List SqlQueueRowSet) :
    executeJoinQuery decoder resultSet = (decodings decoder resultSet).map Prod.snd := by
  rw [executeJoinQuery, decodings, List.map_filterMap]
  congr 1
  funext ⟨jobGuid, group⟩
  cases group <;> rfl

/-- Where guids identify rows, a group of a result set has the rows of one selected job. -/
theorem exists_job_of_group {criteria : SqlCommonDbOddJobMetaData → Bool}
    {rows group : List SqlQueueRowSet} {first : SqlQueueRowSet} {jobGuid : Guid}
    (guids : (tables.queue.map SqlCommonDbOddJobMetaData.jobGuid).Nodup)
    (returned : Returns tables criteria rows)
    (grouped : (jobGuid, group) ∈ groupBy (fun q => q.metaData.jobGuid) rows)
    (head : group.head? = some first) :
    first.metaData ∈ tables.queue ∧ criteria first.metaData = true ∧
      first.metaData.jobGuid = jobGuid ∧ GroupOf tables first.metaData group := by
  have same : group = rows.filter fun row => row.metaData.jobGuid = jobGuid :=
    (mem_groupBy.mp grouped).2
  obtain ⟨listed, guid⟩ := List.mem_filter.mp (same ▸ List.mem_of_mem_head? head)
  have guid : first.metaData.jobGuid = jobGuid := of_decide_eq_true guid
  obtain ⟨selected, left, right⟩ := mem_joinQuery.mp (returned.mem_iff.mp listed)
  obtain ⟨present, accepted⟩ := List.mem_filter.mp selected
  refine ⟨present, accepted, guid, ⟨fun row => ?_⟩⟩
  rw [same, List.mem_filter, decide_eq_true_eq, returned.mem_iff, mem_joinQuery, mem_joinQuery,
    List.mem_filter, List.mem_singleton]
  constructor
  · rintro ⟨⟨⟨known, _⟩, rest⟩, own⟩
    exact ⟨List.inj_on_of_nodup_map guids known present (own.trans guid.symm), rest⟩
  · rintro ⟨here, rest⟩
    exact ⟨⟨⟨here ▸ present, here ▸ accepted⟩, rest⟩, here ▸ guid⟩

/-- Every job of a result set is rebuilt from the rows of one selected job. -/
theorem exists_group_of_decoding {criteria : SqlCommonDbOddJobMetaData → Bool}
    {rows : List SqlQueueRowSet} {decoder : Decoder CliType Value} {jobGuid : Guid}
    {result : Except ClrException (SqlDbOddJob CliType Value)}
    (guids : (tables.queue.map SqlCommonDbOddJobMetaData.jobGuid).Nodup)
    (returned : Returns tables criteria rows) (member : (jobGuid, result) ∈ decodings decoder rows) :
    ∃ row ∈ tables.queue, criteria row = true ∧ row.jobGuid = jobGuid ∧
      ∃ first group, GroupOf tables row group ∧
        first.metaData = row ∧ decoder.ofGroup row.jobGuid first group = result := by
  obtain ⟨⟨jobGuid, group⟩, grouped, found⟩ := List.mem_filterMap.mp member
  obtain ⟨first, head, same⟩ := Option.map_eq_some_iff.mp found
  cases same
  obtain ⟨present, accepted, rfl, whole⟩ := exists_job_of_group guids returned grouped head
  exact ⟨first.metaData, present, accepted, rfl, first, group, whole, rfl, rfl⟩

/-- The wire forms of a result set are rebuilt in the same way. -/
theorem exists_group_of_serializable {criteria : SqlCommonDbOddJobMetaData → Bool}
    {rows : List SqlQueueRowSet} {job : SerializableOddJob}
    (guids : (tables.queue.map SqlCommonDbOddJobMetaData.jobGuid).Nodup)
    (returned : Returns tables criteria rows) (member : job ∈ executeSerializableJoinQuery rows) :
    ∃ row ∈ tables.queue, criteria row = true ∧ ∃ first group, GroupOf tables row group ∧
      first.metaData = row ∧ serializableOfGroup row.jobGuid first group = job := by
  obtain ⟨⟨jobGuid, group⟩, grouped, found⟩ := List.mem_filterMap.mp member
  obtain ⟨first, head, rfl⟩ := Option.map_eq_some_iff.mp found
  obtain ⟨present, accepted, rfl, whole⟩ := exists_job_of_group guids returned grouped head
  exact ⟨first.metaData, present, accepted, first, group, whole, rfl, rfl⟩

theorem exists_group_of_mem {criteria : SqlCommonDbOddJobMetaData → Bool}
    {rows : List SqlQueueRowSet} {decoder : Decoder CliType Value}
    {result : Except ClrException (SqlDbOddJob CliType Value)}
    (guids : (tables.queue.map SqlCommonDbOddJobMetaData.jobGuid).Nodup)
    (returned : Returns tables criteria rows) (member : result ∈ executeJoinQuery decoder rows) :
    ∃ row ∈ tables.queue, criteria row = true ∧ ∃ first group, GroupOf tables row group ∧
      first.metaData = row ∧ decoder.ofGroup row.jobGuid first group = result := by
  rw [executeJoinQuery_eq] at member
  obtain ⟨⟨jobGuid, result⟩, decoded, rfl⟩ := List.mem_map.mp member
  obtain ⟨row, present, accepted, _, whole⟩ := exists_group_of_decoding guids returned decoded
  exact ⟨row, present, accepted, whole⟩

theorem decodings_keys (decoder : Decoder CliType Value) (resultSet : List SqlQueueRowSet) :
    (decodings decoder resultSet).map Prod.fst =
      distinct (resultSet.map fun q => q.metaData.jobGuid) := by
  rw [← groupBy_keys, decodings, List.map_filterMap, ← List.filterMap_eq_map]
  apply List.filterMap_congr
  intro group grouped
  obtain ⟨⟨row, member, same⟩, members⟩ := mem_groupBy.mp grouped
  have present : row ∈ group.2 := members ▸ List.mem_filter.mpr ⟨member, decide_eq_true same⟩
  obtain ⟨jobGuid, _ | ⟨first, rest⟩⟩ := group
  · cases present
  · rfl

/-- The guids in a result set are those of the selected jobs. -/
theorem returned_ids {criteria : SqlCommonDbOddJobMetaData → Bool} {rows : List SqlQueueRowSet}
    (guids : (tables.queue.map SqlCommonDbOddJobMetaData.jobGuid).Nodup)
    (returned : Returns tables criteria rows) :
    (distinct (rows.map fun q => q.metaData.jobGuid)).Perm
      ((tables.queue.filter criteria).map SqlCommonDbOddJobMetaData.jobGuid) := by
  rw [List.perm_ext_iff_of_nodup (distinct_nodup _) (guids.sublist (List.filter_sublist.map _))]
  intro jobGuid
  simp only [mem_distinct, List.mem_map]
  constructor
  · rintro ⟨row, member, same⟩
    exact ⟨row.metaData, (mem_joinQuery.mp (returned.mem_iff.mp member)).1, same⟩
  · rintro ⟨job, selected, same⟩
    obtain ⟨row, member, own⟩ := exists_mem_joinQuery tables selected
    exact ⟨row, returned.mem_iff.mpr member, own ▸ same⟩

theorem decodings_ids {criteria : SqlCommonDbOddJobMetaData → Bool} {rows : List SqlQueueRowSet}
    (decoder : Decoder CliType Value)
    (guids : (tables.queue.map SqlCommonDbOddJobMetaData.jobGuid).Nodup)
    (returned : Returns tables criteria rows) :
    ((decodings decoder rows).map Prod.fst).Perm
      ((tables.queue.filter criteria).map SqlCommonDbOddJobMetaData.jobGuid) := by
  rw [decodings_keys]
  exact returned_ids guids returned

private theorem head?_of_grouped {rows group : List SqlQueueRowSet} {jobGuid : Guid}
    (grouped : (jobGuid, group) ∈ groupBy (fun q => q.metaData.jobGuid) rows) :
    ∃ first, group.head? = some first := by
  obtain ⟨⟨row, member, same⟩, members⟩ := mem_groupBy.mp grouped
  have members : group = rows.filter fun row => row.metaData.jobGuid = jobGuid := members
  have present : row ∈ group := members ▸ List.mem_filter.mpr ⟨member, decide_eq_true same⟩
  cases group with
  | nil => cases present
  | cons first rest => exact ⟨first, rfl⟩

theorem executeSerializableJoinQuery_ids {criteria : SqlCommonDbOddJobMetaData → Bool}
    {rows : List SqlQueueRowSet}
    (guids : (tables.queue.map SqlCommonDbOddJobMetaData.jobGuid).Nodup)
    (returned : Returns tables criteria rows) :
    ((executeSerializableJoinQuery rows).map SerializableOddJob.jobId).Perm
      ((tables.queue.filter criteria).map SqlCommonDbOddJobMetaData.jobGuid) := by
  have keys : (executeSerializableJoinQuery rows).map SerializableOddJob.jobId =
      distinct (rows.map fun q => q.metaData.jobGuid) := by
    rw [← groupBy_keys, executeSerializableJoinQuery, List.map_filterMap,
      ← List.filterMap_eq_map]
    apply List.filterMap_congr
    rintro ⟨jobGuid, group⟩ grouped
    obtain ⟨first, head⟩ := head?_of_grouped grouped
    simp only [head, Option.map_some, Function.comp_apply]
    rfl
  rw [keys]
  exact returned_ids guids returned

end OddJob.Sql
